import RevCPU.Insns.RV32I
import RevCPU.PanCPU
import RevCPU.ProcRun
import RevCPU.Scoreboard
/-!
The pipelined tick against a hart that runs one instruction after the other. A tick stalls, issues the
instruction at the PC or waits for the load of the one before, so a run of the core is a run of that
hart with idle ticks in between.
-/
namespace RevCPU.Pipeline
open Feature InstTable RegFile Proc Scoreboard

variable {σ ι : Type}

/-- What a call of Execute is given. -/
structure Issued where
  pc : BitVec 64
  entry : Nat
  inst : RevInst

/-- The core with a record of the calls of Execute beside its memory. -/
def logged (machine : Machine σ ι) : Machine (σ × List Issued) ι where
  feature := machine.feature
  isFloat := machine.isFloat
  decode := fun regs memory => machine.decode regs memory.1
  execute := fun entry inst seed regs memory =>
    (machine.execute entry inst seed regs memory.1).map fun outcome =>
      { outcome with
        memory := (outcome.memory, memory.2 ++ [⟨getPC machine.feature regs, entry, inst⟩]) }
  readVal := fun addr inst memory =>
    (machine.readVal addr inst memory.1).map fun read => ((read.1, memory.2), read.2)
  otherEcall := fun code pid file inst memory =>
    (machine.otherEcall code pid file inst memory.1).map fun outcome =>
      { outcome with memory := (outcome.memory, memory.2) }
  ctrl := fun memory => machine.ctrl memory.1

/-- The PC stands at an instruction of the program. -/
def Running (feature : RevFeature) (regs : RevRegFile) : Prop :=
  getPC feature regs ≠ 0 ∧ getPC feature regs ≠ panFwareJump

/-- A decoded instruction as the pipeline hands it to its table function. -/
def issued (fetched : Fetched) : RevInst :=
  { fetched.inst with entry := fetched.entry, cost := fetched.cost, hazard := some false }

section Sequential
variable (machine : Machine σ ι) (works : RevRegFile × σ → RevRegFile × σ → Prop)

/-- A hart without a pipeline. `pending` is whether its last instruction waits for a load. -/
structure Hart (σ : Type) where
  regs : RevRegFile
  memory : σ
  pending : Bool

/-- The sequential path: the instruction at the PC is executed when the one before is complete, and in
between the memory works, which may fill a register and answer the load. -/
inductive Path (first : Hart σ) : Hart σ → List Issued → Prop
  | start : Path first first []
  | exec {hart : Hart σ} {done : List Issued} {fetched : Fetched} {outcome : Outcome σ} (seed : ι)
      (before : Path first hart done) (running : Running machine.feature hart.regs)
      (complete : hart.pending = false)
      (decoded : machine.decode hart.regs hart.memory = some fetched)
      (executed : machine.execute fetched.entry (issued fetched) seed hart.regs hart.memory =
        some outcome) :
      Path first ⟨outcome.regs, outcome.memory, outcome.hazard⟩
        (done ++ [⟨getPC machine.feature hart.regs, fetched.entry, issued fetched⟩])
  | wait {hart : Hart σ} {done : List Issued} {regs : RevRegFile} {memory : σ} (answered : Bool)
      (before : Path first hart done) (worked : works (hart.regs, hart.memory) (regs, memory)) :
      Path first ⟨regs, memory, hart.pending && !answered⟩ done

end Sequential

section Runs
variable (machine : Machine σ ι) (works : RevRegFile × σ → RevRegFile × σ → Prop)

/-- The core after the memory worked between two ticks. -/
def worked (proc : RevProc σ) (file : CtxFile) (regs : RevRegFile) (memory : σ)
    (answered : Bool) : RevProc σ :=
  { proc.setFile { file with regs := regs } with
    memory := memory
    pipeline :=
      if answered then proc.pipeline.map fun inst => { inst with hazard := some false }
      else proc.pipeline }

/-- The instruction at the PC, as this tick would execute it. -/
def Next (proc : RevProc σ) (tick : Tick ι) (fetched : Fetched) (outcome : Outcome σ) : Prop :=
  ∃ file, proc.file = .ok file ∧ machine.decode file.regs proc.memory = some fetched ∧
    machine.execute fetched.entry (issued fetched) tick.seed file.regs proc.memory = some outcome

/-- An instruction whose table cost is 1 and that is no ecall. -/
def Plain (proc : RevProc σ) (tick : Tick ι) : Prop :=
  ∀ fetched outcome, Next machine proc tick fetched outcome →
    fetched.cost = 1 ∧ outcome.ecall = false

/-- A load that waits for its data does not draw the cost that takes the sum with its own to 0. -/
def Unwrapped (proc : RevProc σ) (tick : Tick ι) : Prop :=
  ∀ fetched outcome, Next machine proc tick fetched outcome → outcome.hazard = true →
    1 + outcome.extra ≠ 0

def Meets (proc : RevProc σ) (tick : Tick ι) : Prop :=
  Plain machine proc tick ∧ Unwrapped machine proc tick

/-- Ticks up to the test for completion, from states with the PC in the program. -/
inductive Runs (good : RevProc σ → Tick ι → Prop) (first : RevProc σ) : RevProc σ → Prop
  | start : Runs good first first
  | tick {proc after : RevProc σ} {file : CtxFile} (tick : Tick ι) (before : Runs good first proc)
      (opened : proc.file = .ok file) (running : Running machine.feature file.regs)
      (meets : good proc tick) (advanced : proc.advance machine tick = .ok after) :
      Runs good first after
  | wait {proc : RevProc σ} {file : CtxFile} {regs : RevRegFile} {memory : σ} (answered : Bool)
      (before : Runs good first proc) (opened : proc.file = .ok file)
      (work : works (file.regs, proc.memory) (regs, memory)) :
      Runs good first (worked proc file regs memory answered)

end Runs

section Stages
variable (machine : Machine σ ι)

/-- The core as the sequential path sees it. -/
def hartOf (proc : RevProc σ) (file : CtxFile) : Hart σ :=
  ⟨file.regs, proc.memory, proc.pipeline.any fun inst => inst.hazard == some true⟩

/-- No switch waits, and the core neither halts nor steps nor serves an ecall. -/
structure Plainly (proc : RevProc σ) (ctx : RevThreadCtx) : Prop where
  found : proc.threadTable proc.activePID = some ctx
  settled : proc.pendingCtxSwitch = false
  awake : proc.halted = false
  free : proc.singleStep = false
  quiet : ctx.file.ecall = false

/-- Nothing is in the pipeline, and nothing is left of what was. -/
structure Drained (proc : RevProc σ) (ctx : RevThreadCtx) : Prop extends Plainly proc ctx where
  pipeline : proc.pipeline = []
  cost : ctx.file.cost = 0
  board : AllClear ctx.file

/-- One instruction is in the pipeline, and it was executed. -/
structure Executed (proc : RevProc σ) (ctx : RevThreadCtx) (inst : RevInst) : Prop
    extends Plainly proc ctx where
  pipeline : proc.pipeline = [inst]
  last : inst.cost = 1
  hazard : inst.hazard.isSome = true
  trigger : ctx.file.trigger = true
  board : ∃ clear, AllClear clear ∧
    ctx.file.board = (dependencySet machine.feature machine.isFloat clear inst).board

/-- What holds at the head of every tick. While an instruction waits for a load, the cost keeps the core
from fetching. -/
def Steady (proc : RevProc σ) (ctx : RevThreadCtx) : Prop :=
  Drained proc ctx ∨ ∃ inst, Executed machine proc ctx inst ∧ ctx.file.cost ≠ 0

end Stages

section Board
variable (feature : RevFeature) (float : Nat → Bool)

theorem dependencySet_board (file : CtxFile) (inst : RevInst) :
    dependencySet feature float file inst =
      { file with board := (dependencySet feature float file inst).board } := by
  rw [dependencySet]
  split <;> rfl

theorem dependencyClear_board (file : CtxFile) (inst : RevInst) :
    dependencyClear feature float file inst =
      { file with board := (dependencyClear feature float file inst).board } := by
  rw [dependencyClear]
  split <;> rfl

theorem dependencySet_congr {file other : CtxFile} (same : file.board = other.board)
    (inst : RevInst) : (dependencySet feature float file inst).board =
      (dependencySet feature float other inst).board := by
  rw [dependencySet, dependencySet]
  split
  · rw [setBit, setBit, same]
  · exact same

theorem dependencyClear_congr {file other : CtxFile} (same : file.board = other.board)
    (inst : RevInst) : (dependencyClear feature float file inst).board =
      (dependencyClear feature float other inst).board := by
  rw [dependencyClear, dependencyClear]
  split
  · rw [setBit, setBit, same]
  · exact same

-- An instruction without a hazard waits for nothing where the scoreboard is clear.
theorem dependencyCheck_clear {file : CtxFile} (clear : AllClear file) {inst : RevInst}
    (calm : inst.hazard = none) : dependencyCheck feature float file inst = false := by
  simp [dependencyCheck, calm, clear _ _]

end Board

section Ticks
variable {machine : Machine σ ι} {proc after : RevProc σ} {ctx : RevThreadCtx} {tick : Tick ι}
  {inst : RevInst}

theorem switchCtx_settled (settled : proc.pendingCtxSwitch = false) (feature : RevFeature) :
    proc.switchCtx feature = .ok proc := by
  simp [RevProc.switchCtx, settled]

-- Lowered and raised again, the cost of an instruction that waits stays 1.
theorem retire_waiting (pipeline : proc.pipeline = [inst]) (last : inst.cost = 1)
    (waits : inst.hazard = some true) : proc.retire machine = .ok proc := by
  have positive : (0 : BitVec 32) < inst.cost := by rw [last]; decide
  have kept : { inst with cost := inst.cost - 1 + 1 } = inst := by
    rw [BitVec.sub_add_cancel]
  have undone : ¬ (inst.cost - 1 = 0 ∧ inst.hazard = some false) := by simp [waits]
  rw [RevProc.retire, pipeline]
  dsimp only
  rw [if_pos positive, if_neg undone, kept, ← pipeline]

/-- The file behind a retirement, and the core with it. -/
def retiredFile (machine : Machine σ ι) (file : CtxFile) (inst : RevInst) : CtxFile :=
  { dependencyClear machine.feature machine.isFloat file inst with cost := 0 }

def retiredAt (machine : Machine σ ι) (proc : RevProc σ) (file : CtxFile) (inst : RevInst) :
    RevProc σ :=
  { proc.setFile (retiredFile machine file inst) with pipeline := [] }

theorem retire_done (executed : Executed machine proc ctx inst) (done : inst.hazard = some false) :
    proc.retire machine = .ok (retiredAt machine proc ctx.file inst) ∧
      Drained (retiredAt machine proc ctx.file inst)
        { ctx with file := retiredFile machine ctx.file inst } ∧
      hartOf (retiredAt machine proc ctx.file inst) (retiredFile machine ctx.file inst) =
        hartOf proc ctx.file := by
  have ⟨clear, allClear, board⟩ := executed.board
  have positive : (0 : BitVec 32) < inst.cost := by rw [executed.last]; decide
  have lowered : inst.cost - 1 = 0 := by rw [executed.last]; decide
  refine ⟨?_, ⟨⟨setFile_found executed.found _, executed.settled, executed.awake,
    executed.free, ?_⟩, rfl, rfl, ?_⟩, ?_⟩
  · rw [RevProc.retire, executed.pipeline]
    simp only [positive, if_true, lowered, true_and, done, file_found executed.found]
    rfl
  · rw [retiredFile, dependencyClear_board]
    exact executed.quiet
  · -- What the instruction marked is what its retirement clears.
    have cleared := dependencyClear_dependencySet machine.feature machine.isFloat clear inst allClear
    intro bank index
    show (dependencyClear machine.feature machine.isFloat ctx.file inst).board bank index = false
    rw [dependencyClear_congr _ _ board, cleared]
    exact allClear bank index
  · rw [hartOf, hartOf, executed.pipeline, retiredFile, dependencyClear_board]
    simp only [List.any_cons, List.any_nil, done]
    rfl

/-- The retirement of an executed instruction, which leaves the core drained or waiting. -/
theorem retire_executed (executed : Executed machine proc ctx inst)
    (cost : inst.hazard = some true → ctx.file.cost ≠ 0) :
    ∃ after ctx', proc.retire machine = .ok after ∧ Steady machine after ctx' ∧
      hartOf after ctx'.file = hartOf proc ctx.file := by
  by_cases waits : inst.hazard = some true
  · exact ⟨proc, ctx, retire_waiting executed.pipeline executed.last waits,
      .inr ⟨inst, executed, cost waits⟩, rfl⟩
  · have done : inst.hazard = some false := by
      have some := executed.hazard
      cases hazard : inst.hazard with
      | none => simp [hazard] at some
      | some flag =>
        cases flag with
        | false => rfl
        | true => exact absurd hazard waits
    have ⟨retired, drained, same⟩ := retire_done executed done
    exact ⟨_, _, retired, .inl drained, same⟩

theorem Steady.opened (steady : Steady machine proc ctx) : proc.file = .ok ctx.file := by
  rcases steady with drained | ⟨inst, executed, -⟩
  · exact file_found drained.found
  · exact file_found executed.found

-- A core whose instruction waits neither fetches nor executes.
theorem advance_waiting (executed : Executed machine proc ctx inst) (cost : ctx.file.cost ≠ 0) :
    proc.advance machine tick = proc.retire machine := by
  have fetch : proc.fetch machine tick = .ok proc := by
    simp only [RevProc.fetch, file_found executed.found, cost, false_and, if_false]
  have trigger : proc.trigger machine tick = .ok proc := by
    simp only [RevProc.trigger, file_found executed.found, executed.trigger]
    simp
  simp only [RevProc.advance, switchCtx_settled executed.settled, fetch, trigger]

def stalledAt (proc : RevProc σ) (inst : RevInst) (pc : BitVec 64) : RevProc σ :=
  { proc with stalled := true, inst := inst, cte := false, hartToExec := false, execPC := pc }

theorem fetch_stalled (drained : Drained proc ctx)
    (stalled : RevProc.prefetchInst machine tick ctx.file = false) :
    ∃ inst pc, proc.fetch machine tick = .ok (stalledAt proc inst pc) := by
  have same : { ctx.file with cost := 0 } = ctx.file := by
    rw [← drained.cost]
  refine ⟨{ resetInst proc.inst with cost := 0, entry := ctx.file.entry, hazard := none },
    getPC machine.feature ctx.file.regs, ?_⟩
  rw [RevProc.fetch, file_found drained.found]
  dsimp only
  rw [if_pos ⟨drained.cost, drained.awake⟩]
  simp only [stalled, RevProc.decodeNext, Bool.false_eq_true, if_false, Bool.not_false, Bool.true_or,
    if_true]
  rw [same, setFile_self drained.found]
  rfl

theorem retire_empty (empty : proc.pipeline = []) : proc.retire machine = .ok proc := by
  rw [RevProc.retire, empty]

theorem stalledAt_drained (drained : Drained proc ctx) (inst : RevInst) (pc : BitVec 64) :
    Drained (stalledAt proc inst pc) ctx :=
  ⟨⟨drained.found, drained.settled, drained.awake, drained.free, drained.quiet⟩, drained.pipeline,
    drained.cost, drained.board⟩

theorem advance_stalledAt (drained : Drained proc ctx)
    (stalled : RevProc.prefetchInst machine tick ctx.file = false) :
    ∃ inst pc, proc.advance machine tick = .ok (stalledAt proc inst pc) := by
  have ⟨inst, pc, fetch⟩ := fetch_stalled drained stalled
  have found : (stalledAt proc inst pc).threadTable (stalledAt proc inst pc).activePID = some ctx :=
    drained.found
  have invalid : (stalledAt proc inst pc).hartToExec = false := rfl
  have trigger : (stalledAt proc inst pc).trigger machine tick = .ok (stalledAt proc inst pc) := by
    simp only [RevProc.trigger, file_found found, invalid, Bool.false_eq_true, false_and, if_false]
  refine ⟨inst, pc, ?_⟩
  simp only [RevProc.advance, switchCtx_settled drained.settled, fetch, trigger]
  exact retire_empty drained.pipeline

theorem advance_stalled (drained : Drained proc ctx)
    (stalled : RevProc.prefetchInst machine tick ctx.file = false) :
    ∃ after ctx', proc.advance machine tick = .ok after ∧ Steady machine after ctx' ∧
      hartOf after ctx'.file = hartOf proc ctx.file := by
  have ⟨inst, pc, advanced⟩ := advance_stalledAt drained stalled
  exact ⟨stalledAt proc inst pc, ctx, advanced, .inl (stalledAt_drained drained inst pc), rfl⟩

section Issue
variable {fetched : Fetched} {outcome : Outcome σ}

/-- The file that a decoded instruction leaves, and the core behind its fetch. -/
def fetchedFile (file : CtxFile) (fetched : Fetched) : CtxFile :=
  { file with cost := fetched.cost, entry := fetched.entry, trigger := false }

def fetchedAt (proc : RevProc σ) (file : CtxFile) (fetched : Fetched) (pc : BitVec 64) : RevProc σ :=
  { proc.setFile (fetchedFile file fetched) with
    stalled := false, cte := true, hartToExec := true, execPC := pc
    inst := { issued fetched with hazard := none } }

theorem fetch_available (drained : Drained proc ctx)
    (available : RevProc.prefetchInst machine tick ctx.file = true)
    (decoded : machine.decode ctx.file.regs proc.memory = some fetched) :
    proc.fetch machine tick =
      .ok (fetchedAt proc ctx.file fetched (getPC machine.feature ctx.file.regs)) := by
  have free : dependencyCheck machine.feature machine.isFloat (fetchedFile ctx.file fetched)
      { fetched.inst with entry := fetched.entry, hazard := none } = false :=
    dependencyCheck_clear _ _ drained.board rfl
  have next : proc.decodeNext machine tick ctx.file =
      some (fetched.inst, fetchedFile ctx.file fetched) := by
    rw [RevProc.decodeNext, if_pos available, decoded]
    rfl
  rw [RevProc.fetch, file_found drained.found]
  dsimp only
  rw [if_pos ⟨drained.cost, drained.awake⟩, next]
  simp only [fetchedFile] at free ⊢
  simp only [available, free, Bool.not_true, Bool.or_false, Bool.false_eq_true, if_false]
  rfl

/-- The file behind the call of the table function, and the core with it. -/
def executedFile (machine : Machine σ ι) (file : CtxFile) (fetched : Fetched)
    (outcome : Outcome σ) : CtxFile :=
  let marked := dependencySet machine.feature machine.isFloat
    { fetchedFile file fetched with trigger := true } (issued fetched)
  { marked with
    regs := outcome.regs, cost := marked.cost + outcome.extra, ecall := marked.ecall || outcome.ecall }

def executedAt (machine : Machine σ ι) (proc : RevProc σ) (file : CtxFile) (fetched : Fetched)
    (outcome : Outcome σ) : RevProc σ :=
  { ({ proc with memory := outcome.memory } : RevProc σ).setFile
      (executedFile machine file fetched outcome) with
    pipeline := [{ issued fetched with hazard := some outcome.hazard }] }

theorem executedFile_eq (file : CtxFile) : executedFile machine file fetched outcome =
    { regs := outcome.regs, cost := fetched.cost + outcome.extra, trigger := true
      entry := fetched.entry
      board := (dependencySet machine.feature machine.isFloat file (issued fetched)).board
      ecall := file.ecall || outcome.ecall } := by
  have board : (dependencySet machine.feature machine.isFloat
      { fetchedFile file fetched with trigger := true } (issued fetched)).board =
      (dependencySet machine.feature machine.isFloat file (issued fetched)).board := by
    apply dependencySet_congr
    rfl
  rw [executedFile, dependencySet_board, board]
  rfl

-- The instruction that is executed is the one that was fetched, alone in the pipeline.
theorem fetchedAt_staged (file : CtxFile) (pc : BitVec 64) (settled : proc.pendingCtxSwitch = false)
    (empty : proc.pipeline = []) :
    (if (fetchedAt proc file fetched pc).pendingCtxSwitch then (fetchedAt proc file fetched pc).pipeline
    else (fetchedAt proc file fetched pc).pipeline ++
      [{ (fetchedAt proc file fetched pc).inst with hazard := some false }]) = [issued fetched] := by
  have ready : (fetchedAt proc file fetched pc).pendingCtxSwitch = false := settled
  have none : (fetchedAt proc file fetched pc).pipeline = [] := empty
  rw [ready, none]
  rfl

-- Marking the scoreboard changes nothing that the table function is given.
theorem execute_marked (file : CtxFile) (pc : BitVec 64) :
    machine.execute
      (dependencySet machine.feature machine.isFloat
        { fetchedFile file fetched with trigger := true } (issued fetched)).entry (issued fetched)
      tick.seed
      (dependencySet machine.feature machine.isFloat
        { fetchedFile file fetched with trigger := true } (issued fetched)).regs
      (fetchedAt proc file fetched pc).memory =
    machine.execute fetched.entry (issued fetched) tick.seed file.regs proc.memory := by
  rw [dependencySet_board]
  rfl

theorem issue_drained (file : CtxFile) (pc : BitVec 64) (settled : proc.pendingCtxSwitch = false)
    (empty : proc.pipeline = []) (quiet : file.ecall = false) (plain : outcome.ecall = false)
    (executed : machine.execute fetched.entry (issued fetched) tick.seed file.regs proc.memory =
      some outcome) :
    (fetchedAt proc file fetched pc).issue machine tick
        { fetchedFile file fetched with trigger := true } =
      .ok (executedAt machine (fetchedAt proc file fetched pc) file fetched outcome) := by
  have silent : ((dependencySet machine.feature machine.isFloat
      { fetchedFile file fetched with trigger := true } (issued fetched)).ecall || outcome.ecall) =
      false := by
    rw [dependencySet_board, plain, Bool.or_false]
    exact quiet
  rw [RevProc.issue, fetchedAt_staged file pc settled empty]
  simp only [List.getLast?_singleton, execute_marked, executed, List.dropLast_singleton,
    List.nil_append]
  rw [if_neg (by rw [silent]; decide)]
  rfl

theorem issue_fails (file : CtxFile) (pc : BitVec 64) (settled : proc.pendingCtxSwitch = false)
    (empty : proc.pipeline = [])
    (failed : machine.execute fetched.entry (issued fetched) tick.seed file.regs proc.memory = none) :
    (fetchedAt proc file fetched pc).issue machine tick
      { fetchedFile file fetched with trigger := true } = .error .fatal := by
  rw [RevProc.issue, fetchedAt_staged file pc settled empty]
  simp only [List.getLast?_singleton, execute_marked, failed]

-- The test for an instruction to execute holds behind a fetch.
theorem trigger_issues (drained : Drained proc ctx) {pc : BitVec 64} (inside : pc ≠ panFwareJump)
    {issue : Except Fault (RevProc σ)}
    (issues : (fetchedAt proc ctx.file fetched pc).issue machine tick
      { fetchedFile ctx.file fetched with trigger := true } = issue)
    (free : ∀ staged, issue = .ok staged → staged.singleStep = false) :
    (fetchedAt proc ctx.file fetched pc).trigger machine tick = issue := by
  have found : (fetchedAt proc ctx.file fetched pc).threadTable
      (fetchedAt proc ctx.file fetched pc).activePID =
      some { ctx with file := fetchedFile ctx.file fetched } := setFile_found drained.found _
  have here : ¬ (fetchedAt proc ctx.file fetched pc).execPC = panFwareJump := inside
  rw [RevProc.trigger, file_found found]
  dsimp only
  rw [if_pos ⟨rfl, rfl, drained.awake, rfl⟩, if_neg here, issues]
  cases issue with
  | error fault => rfl
  | ok staged => exact if_neg (by simp [free staged rfl])

theorem trigger_fetched (drained : Drained proc ctx) {pc : BitVec 64} (inside : pc ≠ panFwareJump)
    (plain : outcome.ecall = false)
    (executed : machine.execute fetched.entry (issued fetched) tick.seed ctx.file.regs proc.memory =
      some outcome) :
    (fetchedAt proc ctx.file fetched pc).trigger machine tick =
      .ok (executedAt machine (fetchedAt proc ctx.file fetched pc) ctx.file fetched outcome) := by
  apply trigger_issues drained inside
  · exact issue_drained ctx.file pc drained.settled drained.pipeline drained.quiet plain executed
  · intro staged same
    cases same
    exact drained.free

theorem trigger_fails (drained : Drained proc ctx) {pc : BitVec 64} (inside : pc ≠ panFwareJump)
    (failed : machine.execute fetched.entry (issued fetched) tick.seed ctx.file.regs proc.memory =
      none) :
    (fetchedAt proc ctx.file fetched pc).trigger machine tick = .error .fatal := by
  apply trigger_issues drained inside
  · exact issue_fails ctx.file pc drained.settled drained.pipeline failed
  · intro staged same
    cases same

theorem prefetchInst_running (running : Running machine.feature ctx.file.regs) :
    RevProc.prefetchInst machine tick ctx.file = tick.avail := by
  rw [RevProc.prefetchInst, if_neg (not_or.mpr running)]

section Step
variable (drained : Drained proc ctx) (running : Running machine.feature ctx.file.regs)
  (available : tick.avail = true) (decoded : machine.decode ctx.file.regs proc.memory = some fetched)
  (executed : machine.execute fetched.entry (issued fetched) tick.seed ctx.file.regs proc.memory =
    some outcome) (one : fetched.cost = 1) (plain : outcome.ecall = false)
include drained running available decoded executed one plain

omit one in
/-- The core in front of the retirement, in a tick that executes the instruction at the PC. -/
theorem advance_staged : proc.advance machine tick =
    (executedAt machine (fetchedAt proc ctx.file fetched (getPC machine.feature ctx.file.regs))
      ctx.file fetched outcome).retire machine := by
  have fetch := fetch_available drained ((prefetchInst_running running).trans available) decoded
  have trigger := trigger_fetched drained running.2 plain executed
  simp only [RevProc.advance, switchCtx_settled drained.settled, fetch, trigger]

omit running available decoded executed in
theorem staged_executed (pc : BitVec 64) :
    Executed machine (executedAt machine (fetchedAt proc ctx.file fetched pc) ctx.file fetched outcome)
      { ctx with file := executedFile machine ctx.file fetched outcome }
      { issued fetched with hazard := some outcome.hazard } := by
  have kept : ({ fetchedAt proc ctx.file fetched pc with
      memory := outcome.memory } : RevProc σ).threadTable proc.activePID =
      some { ctx with file := fetchedFile ctx.file fetched } := setFile_found drained.found _
  refine ⟨⟨setFile_found kept _, drained.settled, drained.awake, drained.free, ?_⟩, rfl, one, rfl, ?_,
    ctx.file, drained.board, ?_⟩
  · rw [executedFile_eq, plain, drained.quiet]
    rfl
  · rw [executedFile_eq]
  · rw [executedFile_eq]
    rfl

theorem advance_executed : ∃ staged ctx', proc.advance machine tick = staged.retire machine ∧
    Executed machine staged ctx' { issued fetched with hazard := some outcome.hazard } ∧
    ctx'.file.cost = 1 + outcome.extra ∧
    hartOf staged ctx'.file = ⟨outcome.regs, outcome.memory, outcome.hazard⟩ := by
  refine ⟨_, _, advance_staged drained running available decoded executed plain,
    staged_executed drained one plain _, ?_, ?_⟩
  · rw [executedFile_eq, one]
  · have flag : (some outcome.hazard == some true || false) = outcome.hazard := by
      cases outcome.hazard <;> rfl
    rw [hartOf, executedFile_eq]
    exact congrArg (Hart.mk outcome.regs outcome.memory) flag

theorem advance_issued (unwrapped : outcome.hazard = true → 1 + outcome.extra ≠ 0) :
    ∃ after ctx', proc.advance machine tick = .ok after ∧ Steady machine after ctx' ∧
      hartOf after ctx'.file = ⟨outcome.regs, outcome.memory, outcome.hazard⟩ := by
  have ⟨staged, ctx₁, advanced, ready, cost, hart⟩ :=
    advance_executed drained running available decoded executed one plain
  have kept : some outcome.hazard = some true → ctx₁.file.cost ≠ 0 := by
    intro waits
    rw [cost]
    exact unwrapped (Option.some.inj waits)
  have ⟨after, ctx', retired, steady, same⟩ := retire_executed ready kept
  exact ⟨after, ctx', advanced.trans retired, steady, same.trans hart⟩

theorem advance_wrapped (waits : outcome.hazard = true) (wraps : 1 + outcome.extra = 0) :
    ∃ after ctx', proc.advance machine tick = .ok after ∧
      after.threadTable after.activePID = some ctx' ∧ ctx'.file.cost = 0 ∧ after.pipeline ≠ [] := by
  have ⟨staged, ctx', advanced, ready, cost, _⟩ :=
    advance_executed drained running available decoded executed one plain
  have retired : staged.retire machine = .ok staged :=
    retire_waiting ready.pipeline ready.last (congrArg some waits)
  refine ⟨staged, ctx', advanced.trans retired, ready.found, cost.trans wraps, ?_⟩
  rw [ready.pipeline]
  exact List.cons_ne_nil _ _

end Step
end Issue

/-- What one tick does to the hart: nothing, or the instruction at its PC. It fails only where that
instruction has no decoding or its table function fails. -/
theorem advance_cases (steady : Steady machine proc ctx)
    (running : Running machine.feature ctx.file.regs) (plain : Plain machine proc tick) :
    proc.advance machine tick = .error .fatal ∨
      (∃ after ctx', proc.advance machine tick = .ok after ∧ Steady machine after ctx' ∧
        hartOf after ctx'.file = hartOf proc ctx.file) ∨
      ∃ fetched outcome, machine.decode ctx.file.regs proc.memory = some fetched ∧
        machine.execute fetched.entry (issued fetched) tick.seed ctx.file.regs proc.memory =
          some outcome ∧ (hartOf proc ctx.file).pending = false ∧
        (∃ after, proc.advance machine tick = .ok after) ∧
        ((outcome.hazard = true → 1 + outcome.extra ≠ 0) →
          ∃ after ctx', proc.advance machine tick = .ok after ∧ Steady machine after ctx' ∧
            hartOf after ctx'.file = ⟨outcome.regs, outcome.memory, outcome.hazard⟩) := by
  rcases steady with drained | ⟨inst, executed, cost⟩
  · cases available : tick.avail with
    | false =>
      exact .inr (.inl (advance_stalled drained ((prefetchInst_running running).trans available)))
    | true =>
      have buffered : RevProc.prefetchInst machine tick ctx.file = true :=
        (prefetchInst_running running).trans available
      cases decoded : machine.decode ctx.file.regs proc.memory with
      | none =>
        refine .inl ?_
        simp only [RevProc.advance, switchCtx_settled drained.settled, RevProc.fetch,
          file_found drained.found, drained.cost, drained.awake, true_and, if_true,
          RevProc.decodeNext, buffered, decoded]
      | some fetched =>
        have fetch := fetch_available drained buffered decoded
        cases executed : machine.execute fetched.entry (issued fetched) tick.seed ctx.file.regs
            proc.memory with
        | none =>
          refine .inl ?_
          simp only [RevProc.advance, switchCtx_settled drained.settled, fetch,
            trigger_fails drained running.2 executed]
        | some outcome =>
          have ⟨one, quiet⟩ := plain fetched outcome ⟨_, file_found drained.found, decoded, executed⟩
          refine .inr (.inr ⟨fetched, outcome, rfl, executed, ?_, ?_, ?_⟩)
          · rw [hartOf, drained.pipeline]
            rfl
          · by_cases wraps : outcome.hazard = true ∧ 1 + outcome.extra = 0
            · have ⟨after, _, moved, _⟩ := advance_wrapped drained running available decoded executed
                one quiet wraps.1 wraps.2
              exact ⟨after, moved⟩
            · have ⟨after, _, moved, _⟩ := advance_issued drained running available decoded executed
                one quiet (not_and.mp wraps)
              exact ⟨after, moved⟩
          · exact advance_issued drained running available decoded executed one quiet
  · rw [advance_waiting executed cost]
    exact .inr (.inl (retire_executed executed fun _ => cost))

end Ticks

section Refinement
variable {machine : Machine σ ι} {works : RevRegFile × σ → RevRegFile × σ → Prop}

-- The memory may answer the load of the instruction in the pipeline, and fill its register.
theorem worked_steady {proc : RevProc σ} {ctx : RevThreadCtx} (steady : Steady machine proc ctx)
    (regs : RevRegFile) (memory : σ) (answered : Bool) :
    Steady machine (worked proc ctx.file regs memory answered)
        { ctx with file := { ctx.file with regs := regs } } ∧
      hartOf (worked proc ctx.file regs memory answered) { ctx.file with regs := regs } =
        ⟨regs, memory, (hartOf proc ctx.file).pending && !answered⟩ := by
  rcases steady with drained | ⟨inst, executed, cost⟩
  · have empty : (worked proc ctx.file regs memory answered).pipeline = [] := by
      rw [worked, drained.pipeline]
      cases answered <;> rfl
    constructor
    · exact .inl ⟨⟨setFile_found drained.found _, drained.settled, drained.awake, drained.free,
        drained.quiet⟩, empty, drained.cost, drained.board⟩
    · rw [hartOf, hartOf, empty, drained.pipeline]
      rfl
  · have found := setFile_found executed.found { ctx.file with regs := regs }
    cases answered with
    | false =>
      constructor
      · exact .inr ⟨inst, ⟨⟨found, executed.settled, executed.awake, executed.free, executed.quiet⟩,
          executed.pipeline, executed.last, executed.hazard, executed.trigger,
          executed.board⟩, cost⟩
      · rw [hartOf, Bool.not_false, Bool.and_true]
        rfl
    | true =>
      have answers : (worked proc ctx.file regs memory true).pipeline =
          [{ inst with hazard := some false }] := by
        rw [worked, executed.pipeline]
        rfl
      constructor
      · exact .inr ⟨{ inst with hazard := some false }, ⟨⟨found, executed.settled, executed.awake,
          executed.free, executed.quiet⟩, answers, executed.last, rfl, executed.trigger,
          executed.board⟩, cost⟩
      · rw [hartOf, answers, Bool.not_true, Bool.and_false]
        rfl

theorem initial_drained {proc : RevProc σ} (initial : Initial proc) (awake : proc.halted = false)
    (free : proc.singleStep = false) : ∃ ctx, Drained proc ctx := by
  have ⟨ctx, found, _, _, cost, _, quiet, board⟩ := initial.first
  refine ⟨ctx, ⟨found, initial.pendingCtxSwitch, awake, free, quiet⟩, initial.pipeline, cost, ?_⟩
  intro bank index
  rw [board]

theorem steady_idle {proc : RevProc σ} {ctx : RevThreadCtx} (steady : Steady machine proc ctx) :
    proc.pipeline.length ≤ 1 ∧
      (ctx.file.cost = 0 ↔ proc.pipeline = [] ∧ AllClear ctx.file) := by
  rcases steady with drained | ⟨inst, executed, cost⟩
  · rw [drained.pipeline]
    exact ⟨Nat.zero_le 1, fun _ => ⟨rfl, drained.board⟩, fun _ => drained.cost⟩
  · rw [executed.pipeline]
    exact ⟨Nat.le_refl 1, fun zero => absurd zero cost, fun empty => absurd empty.1 (by simp)⟩

/-- Where the program goes on, the tick returns true and the test for completion changes nothing. -/
theorem clockTick_running {proc after : RevProc σ} {ctx : RevThreadCtx} {tick : Tick ι}
    (advanced : proc.advance machine tick = .ok after)
    (found : after.threadTable after.activePID = some ctx)
    (running : Running machine.feature ctx.file.regs) :
    proc.clockTick machine tick = .ok (true, after) := by
  have inside : ¬ (getPC machine.feature ctx.file.regs = panFwareJump ∨
      getPC machine.feature ctx.file.regs = 0) := not_or.mpr ⟨running.2, running.1⟩
  simp only [RevProc.clockTick, advanced, RevProc.complete, file_found found, inside, if_false]

variable (machine works)

/-- The memory's work does not touch the record of the calls. -/
def beside (before after : RevRegFile × σ × List Issued) : Prop :=
  works (before.1, before.2.1) (after.1, after.2.1) ∧ after.2.2 = before.2.2

def bare (hart : Hart (σ × List Issued)) : Hart σ := ⟨hart.regs, hart.memory.1, hart.pending⟩

/-- The calls of Execute are a sequential path from the start; the pipeline holds one instruction at
most, is used only where it holds one, and the cost says whether it is empty. -/
structure Refines (first proc : RevProc (σ × List Issued)) : Prop where
  path : ∃ start file, first.file = .ok start ∧ proc.file = .ok file ∧
    Path machine works (bare (hartOf first start)) (bare (hartOf proc file)) proc.memory.2
  single : proc.pipeline.length ≤ 1
  idle : ∀ file, proc.file = .ok file → (file.cost = 0 ↔ proc.pipeline = [] ∧ AllClear file)
  filled : ∀ file tick, proc.file = .ok file → Running machine.feature file.regs →
    Plain (logged machine) proc tick → proc.advance (logged machine) tick ≠ .error .emptyPipeline

variable {machine works}

theorem runs_path {first proc : RevProc (σ × List Issued)} {start : RevThreadCtx}
    (drained : Drained first start) (unlogged : first.memory.2 = [])
    (run : Runs (logged machine) (beside works) (Meets (logged machine)) first proc) :
    ∃ ctx, Steady (logged machine) proc ctx ∧
      Path machine works (bare (hartOf first start.file)) (bare (hartOf proc ctx.file))
        proc.memory.2 := by
  induction run with
  | start =>
    refine ⟨start, .inl drained, ?_⟩
    rw [unlogged]
    exact .start
  | @tick proc after file tick before opened running meets advanced ih =>
    have ⟨ctx, steady, path⟩ := ih
    obtain rfl := Except.ok.inj (opened.symm.trans steady.opened)
    rcases advance_cases steady running meets.1 with failed | ⟨after', ctx', moved, steady', kept⟩ |
      ⟨fetched, outcome, decoded, executed, complete, -, moves⟩
    · exact absurd (failed.symm.trans advanced) (by simp)
    · obtain rfl := Except.ok.inj (moved.symm.trans advanced)
      have memory : after'.memory = proc.memory := congrArg Hart.memory kept
      refine ⟨ctx', steady', ?_⟩
      rw [kept, memory]
      exact path
    · have next : Next (logged machine) proc tick fetched outcome := ⟨_, opened, decoded, executed⟩
      have ⟨after', ctx', moved, steady', hart⟩ := moves (meets.2 fetched outcome next)
      obtain rfl := Except.ok.inj (moved.symm.trans advanced)
      have memory : after'.memory = outcome.memory := congrArg Hart.memory hart
      have ⟨result, called, logs⟩ := Option.map_eq_some_iff.mp executed
      refine ⟨ctx', steady', ?_⟩
      rw [hart, memory, ← logs]
      exact .exec tick.seed path running complete decoded called
  | @wait proc file regs memory answered before opened work ih =>
    have ⟨ctx, steady, path⟩ := ih
    obtain rfl := Except.ok.inj (opened.symm.trans steady.opened)
    have ⟨steady', hart⟩ := worked_steady steady regs memory answered
    refine ⟨_, steady', ?_⟩
    have log : (worked proc ctx.file regs memory answered).memory.2 = proc.memory.2 := work.2
    rw [hart, log]
    exact .wait answered path work.1

/-- Ticks that stall, ticks that wait for a load and all interleavings with the memory's work leave the
calls of Execute what a hart without a pipeline calls. -/
theorem pipeline_refines {first proc : RevProc (σ × List Issued)} (initial : Initial first)
    (awake : first.halted = false) (free : first.singleStep = false) (unlogged : first.memory.2 = [])
    (run : Runs (logged machine) (beside works) (Meets (logged machine)) first proc) :
    Refines machine works first proc := by
  have ⟨start, drained⟩ := initial_drained initial awake free
  have ⟨ctx, steady, path⟩ := runs_path drained unlogged run
  have ⟨single, idle⟩ := steady_idle steady
  have opened := steady.opened
  constructor
  · exact ⟨start.file, ctx.file, file_found drained.found, opened, path⟩
  · exact single
  · intro file here
    obtain rfl := Except.ok.inj (opened.symm.trans here)
    exact idle
  · intro file tick here running plain empty
    obtain rfl := Except.ok.inj (opened.symm.trans here)
    rcases advance_cases steady running plain with failed | ⟨after, ctx', moved, -⟩ |
      ⟨_, _, _, _, _, ⟨after, moved⟩, -⟩
    · exact absurd (failed.symm.trans empty) (by simp)
    · exact absurd (moved.symm.trans empty) (by simp)
    · exact absurd (moved.symm.trans empty) (by simp)

end Refinement

section Programs

/-- The table functions of a core with a controller: a load is sent, its hazard set, and its memory cost
drawn from what the tick is given. -/
def loadMachine (feature : RevFeature)
    (program : Nat → Option ((RevFeature → RevRegFile → RevInst → Plan) × RevInst)) :
    Machine MemCtrl.Ctrl (BitVec 32) where
  feature := feature
  isFloat := fun _ => false
  decode := fun regs _ =>
    (program (getPC feature regs).toNat).map fun row => ⟨row.2, (getPC feature regs).toNat, 1⟩
  execute := fun entry inst rand regs ctrl =>
    match program entry with
    | none => none
    | some (func, _) =>
      let plan := func feature regs inst
      let extra := if plan.randCost then Pan.randCost feature rand else 0
      match plan.access with
      | .none => some ⟨plan.finish fun _ => 0, ctrl, false, extra, false⟩
      | .read addr len target flags =>
        some ⟨plan.finish target, ctrl.sendREADRequest 0 addr.toNat addr.toNat len 0 0
          (BitVec.ofNat 32 flags), true, extra, false⟩
      | .write addr len data =>
        some ⟨plan.finish fun _ => 0, ctrl.sendWRITERequest 0 addr.toNat addr.toNat len data 0,
          false, extra, false⟩
  readVal := fun _ _ _ => none
  otherEcall := fun _ _ _ _ _ => none
  ctrl := some

/-- `lw x5, 0(x0)` and `addi x6, x0, 0`. -/
def loadThenAdd : Nat → Option ((RevFeature → RevRegFile → RevInst → Plan) × RevInst)
  | 0x1000 => some (Insns.RV32I.lw, { (default : RevInst) with rd := 5, instSize := 4 })
  | 0x1004 => some (Insns.RV32I.addi, { (default : RevInst) with rd := 6, instSize := 4 })
  | _ => none

/-- The memory costs that a configuration gives a core. -/
def costing (minCost maxCost : BitVec 32) : RevFeature :=
  { features := 2, xlen := 64, minCost := minCost, maxCost := maxCost }

def loadingProc : RevProc (MemCtrl.Ctrl × List Issued) :=
  freshProc { (default : RevRegFile) with rv64PC := 0x1000 }
    (MemCtrl.Ctrl.new (fun _ => 0) (fun _ => false), [])

theorem loadMachine_plain (feature : RevFeature)
    (program : Nat → Option ((RevFeature → RevRegFile → RevInst → Plan) × RevInst))
    (proc : RevProc (MemCtrl.Ctrl × List Issued)) (tick : Tick (BitVec 32)) :
    Plain (logged (loadMachine feature program)) proc tick := by
  rintro fetched outcome ⟨file, opened, decoded, executed⟩
  have ⟨row, _, same⟩ := Option.map_eq_some_iff.mp decoded
  have ⟨result, called, logs⟩ := Option.map_eq_some_iff.mp executed
  constructor
  · rw [← same]
  · rw [← logs]
    simp only [loadMachine] at called
    split at called
    · cases called
    · split at called
      · cases called
        rfl
      · cases called
        rfl
      · cases called
        rfl

/-- Costs that are not negative as the options read them: no draw takes the sum to 0. -/
theorem loadMachine_unwrapped {feature : RevFeature} (minCost : feature.minCost.toNat < 2 ^ 31)
    (drawable : 0 < feature.maxCost.toNat) (maxCost : feature.maxCost.toNat < 2 ^ 31)
    (program : Nat → Option ((RevFeature → RevRegFile → RevInst → Plan) × RevInst))
    (proc : RevProc (MemCtrl.Ctrl × List Issued)) (tick : Tick (BitVec 32)) :
    Unwrapped (logged (loadMachine feature program)) proc tick := by
  rintro fetched outcome ⟨file, opened, decoded, executed⟩ waits
  have ⟨result, called, logs⟩ := Option.map_eq_some_iff.mp executed
  have positive : ∀ cost : BitVec 32, cost.toNat < 2 ^ 32 - 1 → 1 + cost ≠ 0 := by
    intro cost below zero
    have sum := congrArg BitVec.toNat zero
    have one : (1 : BitVec 32).toNat = 1 := rfl
    rw [BitVec.toNat_add, one, Nat.mod_eq_of_lt (by omega)] at sum
    exact absurd sum (by simp)
  have drawn : (Pan.randCost feature tick.seed).toNat < 2 ^ 32 - 1 := by
    have below := Nat.mod_lt tick.seed.toNat drawable
    rw [Pan.randCost, BitVec.toNat_add, BitVec.toNat_umod, Nat.mod_eq_of_lt (by omega)]
    omega
  rw [← logs]
  simp only [loadMachine] at called
  split at called
  · cases called
  · split at called
    all_goals
      cases called
      dsimp only
      split
      · exact positive _ drawn
      · exact positive _ (by decide)

-- A stall, a load that waits, is answered and retires, and the next instruction.
theorem pipeline_refines_load : ∃ proc, proc.memory.2.length = 2 ∧
    Refines (loadMachine (costing 1 1) loadThenAdd) (fun before after => after = before) loadingProc
      proc := by
  have meets : ∀ proc tick,
      Meets (logged (loadMachine (costing 1 1) loadThenAdd)) proc tick := fun proc tick =>
    ⟨loadMachine_plain _ _ proc tick,
      loadMachine_unwrapped (by decide) (by decide) (by decide) _ proc tick⟩
  have begun : Runs (logged (loadMachine (costing 1 1) loadThenAdd))
      (beside fun before after => after = before)
      (Meets (logged (loadMachine (costing 1 1) loadThenAdd))) loadingProc loadingProc := .start
  have stalled := begun.tick ⟨false, 0⟩ rfl ⟨by decide, by decide⟩ (meets _ _) rfl
  have waiting := stalled.tick ⟨true, 0⟩ rfl ⟨by decide, by decide⟩ (meets _ _) rfl
  have answered := (waiting.tick ⟨true, 0⟩ rfl ⟨by decide, by decide⟩ (meets _ _) rfl).wait true rfl
    ⟨rfl, rfl⟩
  have retired := answered.tick ⟨true, 0⟩ rfl ⟨by decide, by decide⟩ (meets _ _) rfl
  have added := retired.tick ⟨true, 0⟩ rfl ⟨by decide, by decide⟩ (meets _ _) rfl
  exact ⟨_, by rfl, pipeline_refines (freshProc_initial _ _) rfl rfl rfl added⟩

/-- With the cost -1, which the options take, the load that waits has the cost 0 and the next
instruction joins it. -/
theorem pipeline_overlaps : ∃ proc,
    Runs (logged (loadMachine (costing 0xFFFFFFFF 1) loadThenAdd)) (beside fun _ _ => False)
      (Plain (logged (loadMachine (costing 0xFFFFFFFF 1) loadThenAdd))) loadingProc proc ∧
    ¬ Refines (loadMachine (costing 0xFFFFFFFF 1) loadThenAdd) (fun _ _ => False) loadingProc proc := by
  refine ⟨_, .tick ⟨true, 0⟩ (.tick ⟨true, 0⟩ .start rfl ⟨by decide, by decide⟩
    (loadMachine_plain _ _ _ _) rfl) rfl ⟨by decide, by decide⟩ (loadMachine_plain _ _ _ _) rfl, ?_⟩
  intro refined
  exact absurd refined.single (by decide)

end Programs
end RevCPU.Pipeline
