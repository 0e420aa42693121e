import RevCPU.Insns.RV32I
import RevCPU.Threads
/-!
When a core may report that it is done. The test for completion asks the controller for requests in
flight, but not for those in its queue, never looks at the pipeline, and a thread without a parent
overrides whatever was found before.
-/
namespace RevCPU.Completion
open Feature InstTable RegFile Pan Proc Threads

variable {σ ι : Type} (machine : Machine σ ι)

def MemoryIdle (proc : RevProc σ) : Prop :=
  ∀ ctrl, machine.ctrl proc.memory = some ctrl → ctrl.rqstQ = [] ∧ ctrl.requests = []

def PanIdle (proc : RevProc σ) : Prop :=
  ∀ exec, proc.pExec = some exec → exec.runnable = false

structure Idle (proc : RevProc σ) : Prop where
  memory : MemoryIdle machine proc
  pipeline : proc.pipeline = []
  pan : PanIdle proc

/-- What the search of the PAN queue goes on for. -/
def PanWaits (proc : RevProc σ) (ctx : RevThreadCtx) : Prop :=
  getPC machine.feature ctx.file.regs = panFwareJump ∧
    ∃ exec, proc.pExec = some exec ∧ (exec.execQueue = [] ∨ exec.runnable = true)

/-- The core behind the first two stages of a tick: the thread that runs, with its next instruction. -/
def ready (tick : Tick ι) (proc : RevProc σ) : Except Fault (RevProc σ) :=
  match proc.switchCtx machine.feature with
  | .error fault => .error fault
  | .ok proc => proc.fetch machine tick

/-- What a tick that ends has to find. -/
structure Began (tick : Tick ι) (proc core : RevProc σ) (file : CtxFile) : Prop where
  ready : ready machine tick proc = .ok core
  opened : core.file = .ok file

def Fires (core : RevProc σ) (file : CtxFile) : Prop :=
  (core.hartToExec = true ∧ file.trigger = false ∧ core.halted = false ∧ core.cte = true) ∧
    core.execPC ≠ panFwareJump

instance (core : RevProc σ) (file : CtxFile) : Decidable (Fires core file) :=
  inferInstanceAs (Decidable (_ ∧ _))

structure Arrived (proc : RevProc σ) (ctx : RevThreadCtx) : Prop where
  found : proc.threadTable proc.activePID = some ctx
  ends : AtEnd machine ctx

/-- What is in the pipeline before the instruction that executes. -/
def ahead (core : RevProc σ) : List RevInst :=
  if core.pendingCtxSwitch then core.pipeline.dropLast else core.pipeline

/-- The instruction is in its last cycle, and waits for no load. -/
def Last (inst : RevInst) : Prop := inst.cost = 1 ∧ inst.hazard = some false

/-- What is queued and in flight at the controller. -/
def queues (proc : RevProc σ) : Option (List MemCtrl.RevMemOp × List Nat) :=
  (machine.ctrl proc.memory).map fun ctrl => (ctrl.rqstQ, ctrl.requests)

def Drains (pipeline : List RevInst) : Prop := pipeline = [] ∨ ∃ inst, pipeline = [inst] ∧ Last inst

/-- At the head of a tick that may end the program no work is left. Where an instruction takes a first
thread to its end, it is alone, costs one cycle and sends nothing to the controller; where none executes,
what is in the pipeline retires. A core without a hart to execute goes on while requests are in flight or
PAN work waits. -/
structure Timely (tick : Tick ι) (proc : RevProc σ) : Prop where
  jumps : ∀ core file issued ctx, Began machine tick proc core file → Fires core file →
    core.issue machine tick { file with trigger := true } = .ok issued → Arrived machine issued ctx →
    ctx.parentPID = 0 → MemoryIdle machine proc ∧ PanIdle proc ∧ ahead core = [] ∧
      queues machine issued = queues machine proc ∧ ∀ inst ∈ issued.pipeline.getLast?, Last inst
  there : ∀ core file ctx, Began machine tick proc core file → ¬ Fires core file →
    Arrived machine core ctx → core.hartToExec = true → ctx.parentPID = 0 →
    MemoryIdle machine proc ∧ PanIdle proc ∧ Drains proc.pipeline
  stalled : ∀ core file ctx, Began machine tick proc core file → ¬ Fires core file →
    Arrived machine core ctx → core.hartToExec = false → proc.outstandingRqsts machine = false →
    ¬ PanWaits machine proc ctx → MemoryIdle machine proc ∧
      (getPC machine.feature ctx.file.regs = 0 → PanIdle proc) ∧ Drains proc.pipeline

/-- Every tick starts timely, whatever the prefetch buffer gives it. -/
def TimelyTicks : Phase → RevProc σ → Prop
  | .head, proc => ∀ tick, Timely machine tick proc
  | .test, _ => True

section Test
variable {machine} {proc after : RevProc σ} {ctx : RevThreadCtx}

theorem findWork_done :
    (proc.findWork machine ctx.file).1 = false ↔ PanWaits machine proc ctx := by
  unfold RevProc.findWork PanWaits
  by_cases jump : getPC machine.feature ctx.file.regs = panFwareJump
  · rw [if_pos jump]
    cases proc.pExec with
    | none => simp
    | some exec =>
      simp only [jump, true_and, Option.some.injEq, exists_eq_left', runnable_iff]
      unfold PanExec.getNextEntry
      by_cases empty : exec.execQueue = []
      · simp [empty]
      · have filled : exec.execQueue.length ≠ 0 := by simpa using empty
        simp only [if_neg filled, empty, false_or]
        cases PanExec.takeValid exec.execQueue with
        | none => simp
        | some taken => simp
  · rw [if_neg jump]
    simp [jump]

-- A core that is done kept its memory and its pipeline through the test.
theorem complete_keeps {flag : Bool} (completed : proc.complete machine = .ok (flag, after)) :
    after.memory = proc.memory ∧ after.pipeline = proc.pipeline := by
  obtain ⟨ctx, -, ⟨-, -, rfl⟩ | ⟨-, regs, exec, work, rest⟩⟩ := complete_cases completed
  · exact ⟨rfl, rfl⟩
  · rw [work] at rest
    rcases rest with ⟨-, -, -, rfl⟩ | ⟨-, -, -, rfl⟩ | ⟨-, rfl, -⟩
    · exact ⟨rfl, rfl⟩
    · exact ⟨rfl, rfl⟩
    · exact ⟨rfl, rfl⟩

theorem MemoryIdle.of_queues (quiet : MemoryIdle machine proc)
    (same : queues machine after = queues machine proc) : MemoryIdle machine after := by
  intro ctrl attached
  rw [queues, attached, Option.map_some] at same
  obtain ⟨before, present, both⟩ := Option.map_eq_some_iff.mp same.symm
  obtain ⟨rqstQ, requests⟩ := Prod.mk.inj both
  rw [← rqstQ, ← requests]
  exact quiet before present

theorem panIdle_of_jump (jump : getPC machine.feature ctx.file.regs = panFwareJump)
    (still : ¬ PanWaits machine proc ctx) : PanIdle proc := by
  intro exec present
  by_contra busy
  exact still ⟨jump, exec, present, .inr (Bool.not_eq_false _ ▸ busy)⟩

end Test

section Stages
variable {machine} {tick : Tick ι} {proc core middle after : RevProc σ} {file : CtxFile}

/-- Nothing that the end of a tick looks at changes, the pipeline apart. -/
structure Stays (before after : RevProc σ) : Prop where
  memory : after.memory = before.memory
  pExec : after.pExec = before.pExec
  hartToExec : after.hartToExec = before.hartToExec
  thread : (after.threadTable after.activePID).map (fun ctx => (ctx.parentPID, ctx.file.regs)) =
    (before.threadTable before.activePID).map fun ctx => (ctx.parentPID, ctx.file.regs)

theorem Stays.refl (proc : RevProc σ) : Stays proc proc := ⟨rfl, rfl, rfl, rfl⟩

theorem Stays.trans (first : Stays proc middle) (second : Stays middle after) : Stays proc after where
  memory := second.memory.trans first.memory
  pExec := second.pExec.trans first.pExec
  hartToExec := second.hartToExec.trans first.hartToExec
  thread := second.thread.trans first.thread

theorem stays_setFile (opened : proc.file = .ok file) (other : CtxFile) (regs : other.regs = file.regs) :
    Stays proc (proc.setFile other) := by
  obtain ⟨ctx, found, rfl⟩ := file_ok opened
  refine ⟨rfl, rfl, rfl, ?_⟩
  have stored := setFile_found found other
  rw [show (proc.setFile other).activePID = proc.activePID from rfl, stored, found]
  simp only [Option.map_some, regs]

theorem Stays.arrived (stays : Stays proc after) {ctx : RevThreadCtx}
    (arrived : Arrived machine after ctx) : ∃ old, Arrived machine proc old ∧
      old.parentPID = ctx.parentPID ∧ old.file.regs = ctx.file.regs := by
  have thread := stays.thread
  rw [arrived.found, Option.map_some] at thread
  obtain ⟨old, found, same⟩ := Option.map_eq_some_iff.mp thread.symm
  obtain ⟨parent, regs⟩ := Prod.mk.inj same
  refine ⟨old, ⟨found, ?_⟩, parent, regs⟩
  rw [AtEnd, regs]
  exact arrived.ends

theorem ready_keeps (readied : ready machine tick proc = .ok core) :
    core.memory = proc.memory ∧ core.pExec = proc.pExec ∧ core.pipeline = proc.pipeline := by
  unfold ready at readied
  split at readied
  · cases readied
  · rename_i switched stage
    have first : switched.memory = proc.memory ∧ switched.pExec = proc.pExec ∧
        switched.pipeline = proc.pipeline := by
      obtain ⟨-, rfl⟩ | ⟨-, -, ctx, -, rfl⟩ := switchCtx_cases stage
      · exact ⟨rfl, rfl, rfl⟩
      · exact ⟨rfl, rfl, rfl⟩
    unfold RevProc.fetch at readied
    split at readied
    · cases readied
    · split at readied
      · split at readied
        · cases readied
        · cases readied
          exact first
      · cases readied
        exact first

theorem effect_keeps (effect : Effect proc after) :
    after.pExec = proc.pExec ∧ after.hartToExec = proc.hartToExec := by
  cases effect with
  | none memory bytes => exact ⟨rfl, rfl⟩
  | clone memory ctx born => exact ⟨rfl, rfl⟩
  | exit memory ctx found child => exact ⟨rfl, rfl⟩

theorem issue_keeps (issued : core.issue machine tick file = .ok after) :
    after.pExec = core.pExec ∧ after.hartToExec = core.hartToExec ∧
      ∃ inst, after.pipeline = ahead core ++ [inst] := by
  have front : (if core.pendingCtxSwitch then core.pipeline
      else core.pipeline ++ [{ core.inst with hazard := some false }]).dropLast = ahead core := by
    unfold ahead
    split
    · rfl
    · exact List.dropLast_concat
  unfold RevProc.issue at issued
  simp only at issued
  rw [front] at issued
  split at issued
  · cases issued
  · split at issued
    · cases issued
    · rename_i outcome executed
      split at issued
      · split at issued
        · cases issued
        · rename_i served called
          obtain ⟨pExec, hart⟩ := effect_keeps (execEcall_effect called).after_memory
          cases issued
          exact ⟨pExec, hart, _, rfl⟩
      · cases issued
        exact ⟨rfl, rfl, _, rfl⟩

/-- The third stage executes an instruction, or leaves everything but the trigger as it is. -/
theorem trigger_fires (triggered : core.trigger machine tick = .ok after) :
    ∃ file, core.file = .ok file ∧
      (Fires core file ∧ (∃ issued, core.issue machine tick { file with trigger := true } = .ok issued ∧
          Stays issued after ∧ after.pipeline = issued.pipeline) ∨
        ¬ Fires core file ∧ Stays core after ∧ after.pipeline = core.pipeline) := by
  unfold RevProc.trigger at triggered
  split at triggered
  · cases triggered
  · rename_i file opened
    refine ⟨file, opened, ?_⟩
    have stepped : ∀ next : RevProc σ,
        (if next.singleStep then .ok { next with singleStep := false, halted := true }
          else .ok next : Except Fault (RevProc σ)) = .ok after →
        Stays next after ∧ after.pipeline = next.pipeline := by
      intro next ended
      split at ended
      · cases ended
        exact ⟨⟨rfl, rfl, rfl, rfl⟩, rfl⟩
      · cases ended
        exact ⟨.refl _, rfl⟩
    split at triggered
    · rename_i fires
      simp only at triggered
      split at triggered
      · cases triggered
      · rename_i next issue
        obtain ⟨last, pipeline⟩ := stepped next triggered
        split at issue
        · rename_i jump
          cases issue
          refine .inr ⟨fun fired => fired.2 jump, ?_, pipeline⟩
          exact (stays_setFile opened { file with trigger := true } rfl).trans last
        · rename_i other
          exact .inl ⟨⟨fires, other⟩, next, issue, last, pipeline⟩
    · rename_i still
      cases triggered
      exact .inr ⟨fun fired => still fired.1, .refl _, rfl⟩

theorem dependencyClear_regs (file : CtxFile) (inst : RevInst) :
    (dependencyClear machine.feature machine.isFloat file inst).regs = file.regs := by
  unfold dependencyClear
  split
  · rfl
  · rfl

theorem retire_stays (retired : proc.retire machine = .ok after) : Stays proc after := by
  unfold RevProc.retire at retired
  split at retired
  · cases retired
    exact .refl _
  · rename_i front rest filled
    split at retired
    · simp only at retired
      split at retired
      · split at retired
        · cases retired
        · rename_i file opened
          cases retired
          have stays := stays_setFile opened { dependencyClear machine.feature machine.isFloat file
            front with cost := 0 } (dependencyClear_regs file front)
          exact ⟨stays.memory, stays.pExec, stays.hartToExec, stays.thread⟩
      · cases retired
        exact ⟨rfl, rfl, rfl, rfl⟩
    · cases retired
      exact .refl _

theorem retire_drains (drains : Drains proc.pipeline) (retired : proc.retire machine = .ok after) :
    after.pipeline = [] := by
  unfold RevProc.retire at retired
  obtain empty | ⟨inst, single, cost, hazard⟩ := drains
  · rw [empty] at retired
    cases retired
    exact empty
  · rw [single] at retired
    simp only [cost, hazard] at retired
    rw [if_pos (by decide), if_pos ⟨by decide, trivial⟩] at retired
    split at retired
    · cases retired
    · cases retired
      rfl

end Stages

section Ticks
variable {machine} {tick : Tick ι} {proc test after : RevProc σ}

theorem advance_stages (advanced : proc.advance machine tick = .ok test) : ∃ core middle,
    ready machine tick proc = .ok core ∧ core.trigger machine tick = .ok middle ∧
      middle.retire machine = .ok test := by
  unfold RevProc.advance at advanced
  split at advanced
  · cases advanced
  · rename_i switched stage
    split at advanced
    · cases advanced
    · rename_i core fetched
      split at advanced
      · cases advanced
      · rename_i middle triggered
        refine ⟨core, middle, ?_, triggered, advanced⟩
        rw [ready, stage]
        exact fetched

theorem idle_of_timely (timely : Timely machine tick proc) (advanced : proc.advance machine tick = .ok test)
    (done : test.complete machine = .ok (false, after)) :
    MemoryIdle machine after ∧ after.pipeline = [] ∧ PanIdle test := by
  obtain ⟨core, middle, readied, triggered, retired⟩ := advance_stages advanced
  obtain ⟨memory, pExec, pipeline⟩ := ready_keeps readied
  obtain ⟨keptMemory, keptPipeline⟩ := complete_keeps done
  have last := retire_stays retired
  obtain ⟨ctx, found, ⟨-, going, -⟩ | ⟨ends, regs, exec, -, cases⟩⟩ := complete_cases done
  · cases going
  have arrived : Arrived machine test ctx := ⟨found, ends⟩
  obtain ⟨file, opened, ⟨fires, issued, issue, stays, same⟩ | ⟨still, stays, same⟩⟩ :=
    trigger_fires triggered
  · obtain ⟨panKept, hart, inst, filled⟩ := issue_keeps issue
    have onwards := stays.trans last
    obtain ⟨old, arrivedOld, parent, -⟩ := onwards.arrived arrived
    rcases cases with ⟨-, -, going, -⟩ | ⟨-, orphan, -, -⟩ | ⟨invalid, -, -⟩
    · cases going
    · obtain ⟨quiet, pan, alone, sent, final⟩ := timely.jumps core file issued old ⟨readied, opened⟩ fires
        issue arrivedOld (parent.trans orphan)
      rw [alone, List.nil_append] at filled
      have lastInst : Last inst := final inst (by rw [filled]; rfl)
      refine ⟨?_, ?_, ?_⟩
      · refine quiet.of_queues (Eq.trans ?_ sent)
        rw [queues, keptMemory, onwards.memory]
        rfl
      · rw [keptPipeline]
        exact retire_drains (.inr ⟨inst, same.trans filled, lastInst⟩) retired
      · intro exec present
        rw [onwards.pExec, panKept, pExec] at present
        exact pan exec present
    · rw [onwards.hartToExec, hart, fires.1.1] at invalid
      cases invalid
  · have onwards := stays.trans last
    obtain ⟨old, arrivedOld, parent, sameRegs⟩ := onwards.arrived arrived
    have began : Began machine tick proc core file := ⟨readied, opened⟩
    have drained : Drains proc.pipeline → after.pipeline = [] := by
      intro drains
      rw [keptPipeline]
      exact retire_drains (by rw [same, pipeline]; exact drains) retired
    have idle : MemoryIdle machine proc → MemoryIdle machine after := by
      intro quiet
      refine quiet.of_queues ?_
      rw [queues, keptMemory, onwards.memory, memory]
      rfl
    have panTest : test.pExec = proc.pExec := onwards.pExec.trans pExec
    rcases cases with ⟨-, -, going, -⟩ | ⟨valid, orphan, -, -⟩ | ⟨invalid, -, finished⟩
    · cases going
    · obtain ⟨quiet, pan, drains⟩ := timely.there core file old began still arrivedOld
        (onwards.hartToExec.symm.trans valid) (parent.trans orphan)
      exact ⟨idle quiet, drained drains, fun exec present => pan exec (panTest ▸ present)⟩
    · obtain ⟨none, searched⟩ := finished.mp rfl
      have waits : ¬ PanWaits machine test ctx := by
        rw [← findWork_done, searched]
        decide
      have rqsts : proc.outstandingRqsts machine = false := by
        rw [← none, RevProc.outstandingRqsts, RevProc.outstandingRqsts, onwards.memory, memory]
      have waitsHead : ¬ PanWaits machine proc old := by
        rw [PanWaits, sameRegs, ← panTest]
        exact waits
      obtain ⟨quiet, pan, drains⟩ := timely.stalled core file old began still arrivedOld
        (onwards.hartToExec.symm.trans invalid) rqsts waitsHead
      refine ⟨idle quiet, drained drains, ?_⟩
      rcases ends with jump | zero
      · exact panIdle_of_jump jump waits
      · intro exec present
        exact pan (by rw [sameRegs]; exact zero) exec (panTest ▸ present)

end Ticks

/-- The end of a run, in which the core reports that it is done. -/
structure Ended (good : Phase → RevProc σ → Prop) (proc after : RevProc σ) : Prop where
  reached : Reached machine good .test proc
  meets : good .test proc
  done : proc.complete machine = .ok (false, after)

/-- A run whose ticks all start timely never ends early: no memory operation is queued or in flight, no
instruction is in the pipeline, and no PAN entry can be run. -/
theorem never_done_early {proc after : RevProc σ} (ended : Ended machine (TimelyTicks machine) proc after) :
    MemoryIdle machine after ∧ after.pipeline = [] ∧ PanIdle proc := by
  cases ended.reached with
  | advance before tick meets advanced => exact idle_of_timely (meets tick) advanced ended.done

def storeAndReturn : Nat → Option (Code × RevInst)
  | 0x1000 => some (.func Insns.RV32I.sw, { (default : RevInst) with instSize := 4 })
  | 0x1004 => some (.func Insns.RV32I.jalr, { (default : RevInst) with rs1 := 1, instSize := 4 })
  | _ => none

def storing : Machine (Option MemCtrl.Ctrl) Unit :=
  programMachine { features := 2, xlen := 64, minCost := 1, maxCost := 1 } storeAndReturn

/-- The core is done in the tick of the return, with the store in the controller's queue. -/
theorem done_before_store :
    ¬ ∀ proc after, Ended storing (fun _ _ => True) proc after →
      MemoryIdle storing after ∧ after.pipeline = [] ∧ PanIdle proc := by
  intro late
  have seen : (walk storing [⟨true, ()⟩]
      (freshProc { (default : RevRegFile) with rv64PC := 0x1000 }
        (some (MemCtrl.Ctrl.new (fun _ => 0) fun _ => false)))).map
        (fun start => (start.advance storing ⟨true, ()⟩).toOption.map fun proc =>
          (proc.complete storing).toOption.map fun result =>
            (result.1, result.2.memory.map fun ctrl => ctrl.rqstQ.length)) =
      some (some (some (false, some 1))) := by
    decide
  obtain ⟨start, walked, observed⟩ := Option.map_eq_some_iff.mp seen
  have reached := walk_reached (.start _ (freshProc_initial _ _)) walked
  obtain ⟨proc, advanced, ended⟩ := Mem.ok_of_seen observed
  obtain ⟨⟨flag, after⟩, done, found⟩ := Mem.ok_of_seen ended
  obtain ⟨rfl, queue⟩ := Prod.mk.inj found
  obtain ⟨ctrl, attached, one⟩ := Option.map_eq_some_iff.mp queue
  obtain ⟨quiet, -, -⟩ := late proc after ⟨.advance reached _ trivial advanced, trivial, done⟩
  rw [(quiet ctrl attached).1] at one
  cases one

def atStore : RevProc (Option MemCtrl.Ctrl) :=
  freshProc { (default : RevRegFile) with rv64PC := 0x1000 }
    (some (MemCtrl.Ctrl.new (fun _ => 0) fun _ => false))

/-- The core in front of the return, with the store answered. -/
def atReturn : RevProc (Option MemCtrl.Ctrl) :=
  match atStore.clockTick storing ⟨true, ()⟩ with
  | .ok (_, after) => { after with memory := some (MemCtrl.Ctrl.new (fun _ => 0) fun _ => false) }
  | .error _ => atStore

theorem atReturn_outside : ∃ after, atStore.clockTick storing ⟨true, ()⟩ = .ok (true, after) ∧
    Outside after atReturn := by
  refine ⟨_, rfl, ?_⟩
  constructor <;> first | exact fun _ _ => rfl | exact ⟨_, rfl⟩ | rfl

section Views
variable {tick : Tick Unit} {proc core issued : RevProc (Option MemCtrl.Ctrl)} {file : CtxFile}
variable {ctx : RevThreadCtx} {pc : BitVec 64} {fires : Bool}

/-- Whether an instruction executes in the tick, and the PC with which the thread runs. -/
def readyView (tick : Tick Unit) (proc : RevProc (Option MemCtrl.Ctrl)) : Option (Bool × BitVec 64) :=
  (ready storing tick proc).toOption.bind fun core => core.file.toOption.map fun file =>
    (decide (Fires core file), getPC storing.feature file.regs)

/-- The PC behind the instruction of the tick, the pipeline, and how much the controller has to do. -/
structure IssueView where
  pc : BitVec 64
  before : Nat
  pipeline : List (BitVec 32 × Option Bool)
  queues : Option (Nat × Nat)
deriving DecidableEq

def issueView (tick : Tick Unit) (proc : RevProc (Option MemCtrl.Ctrl)) : Option IssueView :=
  (ready storing tick proc).toOption.bind fun core => core.file.toOption.bind fun file =>
    (core.issue storing tick { file with trigger := true }).toOption.bind fun issued =>
      (issued.threadTable issued.activePID).map fun ctx =>
        ⟨getPC storing.feature ctx.file.regs, (ahead core).length,
          issued.pipeline.map fun inst => (inst.cost, inst.hazard),
          (queues storing issued).map fun queues => (queues.1.length, queues.2.length)⟩

theorem began_view (began : Began storing tick proc core file) :
    readyView tick proc = some (decide (Fires core file), getPC storing.feature file.regs) := by
  rw [readyView, began.ready]
  simp only [Except.toOption, Option.bind_some, began.opened, Option.map_some]

theorem issue_view (began : Began storing tick proc core file)
    (issue : core.issue storing tick { file with trigger := true } = .ok issued)
    (arrived : Arrived storing issued ctx) : issueView tick proc = some
      ⟨getPC storing.feature ctx.file.regs, (ahead core).length,
        issued.pipeline.map fun inst => (inst.cost, inst.hazard),
        (queues storing issued).map fun queues => (queues.1.length, queues.2.length)⟩ := by
  rw [issueView, began.ready]
  simp only [Except.toOption, Option.bind_some, began.opened, issue, arrived.found, Option.map_some]

theorem not_arrived (view : readyView tick proc = some (fires, pc)) (inside : pc ≠ panFwareJump ∧ pc ≠ 0)
    (began : Began storing tick proc core file) : ¬ Arrived storing core ctx := by
  intro arrived
  have same := file_found arrived.found
  rw [began.opened] at same
  cases same
  have here := (Prod.mk.inj (Option.some.inj ((began_view began).symm.trans view))).2
  rcases arrived.ends with jump | zero
  · exact inside.1 (here.symm.trans jump)
  · exact inside.2 (here.symm.trans zero)

theorem timely_of_running (view : readyView tick proc = some (fires, pc))
    (inside : pc ≠ panFwareJump ∧ pc ≠ 0)
    (jumps : fires = true → ∀ core file issued ctx, Began storing tick proc core file →
      core.issue storing tick { file with trigger := true } = .ok issued → Arrived storing issued ctx →
      MemoryIdle storing proc ∧ PanIdle proc ∧ ahead core = [] ∧ queues storing issued = queues storing proc ∧
        ∀ inst ∈ issued.pipeline.getLast?, Last inst) : Timely storing tick proc where
  jumps := by
    intro core file issued ctx began executes issue arrived orphan
    have fired := (Prod.mk.inj (Option.some.inj ((began_view began).symm.trans view))).1
    exact jumps (fired.symm.trans (decide_eq_true executes)) core file issued ctx began issue arrived
  there := fun _ _ _ began _ arrived => absurd arrived (not_arrived view inside began)
  stalled := fun _ _ _ began _ arrived => absurd arrived (not_arrived view inside began)

end Views

theorem empty_queues {proc : RevProc (Option MemCtrl.Ctrl)}
    (none : (queues storing proc).map (fun queues => (queues.1.length, queues.2.length)) = some (0, 0)) :
    queues storing proc = some ([], []) := by
  obtain ⟨⟨rqstQ, requests⟩, found, lengths⟩ := Option.map_eq_some_iff.mp none
  obtain ⟨first, second⟩ := Prod.mk.inj lengths
  have queued : rqstQ = [] := List.length_eq_zero_iff.mp first
  have flying : requests = [] := List.length_eq_zero_iff.mp second
  rw [found, queued, flying]

theorem idle_of_queues {proc : RevProc (Option MemCtrl.Ctrl)} (none : queues storing proc = some ([], [])) :
    MemoryIdle storing proc := by
  intro ctrl attached
  rw [queues, attached, Option.map_some, Option.some.injEq] at none
  exact Prod.mk.inj none

theorem atStore_timely (tick : Tick Unit) : Timely storing tick atStore := by
  rcases tick with ⟨_ | _, _⟩
  · have view : readyView ⟨false, ()⟩ atStore = some (false, 0x1000) := by decide +kernel
    exact timely_of_running view (by decide) fun fires => absurd fires (by decide)
  · have view : readyView ⟨true, ()⟩ atStore = some (true, 0x1000) := by decide +kernel
    refine timely_of_running view (by decide) fun _ core file issued ctx began issue arrived => ?_
    have seen : (issueView ⟨true, ()⟩ atStore).map IssueView.pc = some 0x1004 := by decide +kernel
    rw [issue_view began issue arrived, Option.map_some, Option.some.injEq] at seen
    have pc : getPC storing.feature ctx.file.regs = 0x1004 := seen
    have ends := arrived.ends
    rw [AtEnd, pc] at ends
    exact absurd ends (by decide)

theorem atReturn_timely (tick : Tick Unit) : Timely storing tick atReturn := by
  rcases tick with ⟨_ | _, _⟩
  · have view : readyView ⟨false, ()⟩ atReturn = some (false, 0x1004) := by decide +kernel
    exact timely_of_running view (by decide) fun fires => absurd fires (by decide)
  · have view : readyView ⟨true, ()⟩ atReturn = some (true, 0x1004) := by decide +kernel
    refine timely_of_running view (by decide) fun _ core file issued ctx began issue arrived => ?_
    have seen : issueView ⟨true, ()⟩ atReturn = some ⟨0, 0, [(1, some false)], some (0, 0)⟩ := by
      decide +kernel
    rw [issue_view began issue arrived, Option.some.injEq, IssueView.mk.injEq] at seen
    obtain ⟨-, alone, pipeline, none⟩ := seen
    have before : queues storing atReturn = some ([], []) := empty_queues (by decide +kernel)
    refine ⟨idle_of_queues before, ?_, List.length_eq_zero_iff.mp alone,
      (empty_queues none).trans before.symm, ?_⟩
    · intro exec present
      have absent : atReturn.pExec.isNone = true := by decide +kernel
      rw [present] at absent
      cases absent
    · intro inst last
      rw [Option.mem_def, List.getLast?_eq_some_iff] at last
      obtain ⟨rest, filled⟩ := last
      rw [filled, List.map_append] at pipeline
      have behind := (List.append_inj' (pipeline.trans (List.nil_append _).symm) rfl).2
      obtain ⟨cost, hazard⟩ := Prod.mk.inj (List.cons.inj behind).1
      exact ⟨cost, hazard⟩

/-- A store, its answer, and the return: the core is done, with nothing left. -/
theorem never_done_early_return : ∃ proc after, Ended storing (TimelyTicks storing) proc after ∧
    MemoryIdle storing after ∧ after.pipeline = [] ∧ PanIdle proc := by
  obtain ⟨stored, ticked, answered⟩ := atReturn_outside
  have first : Reached storing (TimelyTicks storing) .head atStore := .start _ (freshProc_initial _ _)
  have second : Reached storing (TimelyTicks storing) .head stored := by
    unfold RevProc.clockTick at ticked
    split at ticked
    · cases ticked
    · rename_i middle advanced
      exact .complete (.advance first ⟨true, ()⟩ atStore_timely advanced) trivial ticked
  have ends : (atReturn.clockTick storing ⟨true, ()⟩).toOption.map Prod.fst = some false := by
    decide +kernel
  obtain ⟨⟨flag, after⟩, returned, done⟩ := Mem.ok_of_seen ends
  obtain rfl : flag = false := done
  unfold RevProc.clockTick at returned
  split at returned
  · cases returned
  · rename_i proc advanced
    have ended : Ended storing (TimelyTicks storing) proc after :=
      ⟨.advance (.outside second answered) ⟨true, ()⟩ atReturn_timely advanced, trivial, returned⟩
    exact ⟨proc, after, ended, never_done_early storing ended⟩

end RevCPU.Completion
