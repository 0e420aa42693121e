import RevCPU.Cost
import RevCPU.Execute
import RevCPU.Lib.Lockstep
import RevCPU.Pipeline
import RevCPU.PrefetchWord
/-!
A whole program on the core: prefetched words, DecodeInst, the dispatch to a table function, the
pipelined tick and RevMem with its TLB and pages, against a hart of the manual that executes one
instruction after the other on flat bytes. The memory has no controller. `stopped` is where the core
looks for the end of its work.
-/
namespace RevCPU.Program
open Feature InstTable Seed Decode DecodeCompressed Mem MemRefine RegFile Isa Execute Pipeline
open Proc hiding Code
open BaseArith (basePlan)
open BaseMem (ValidBytes runLocal)
open Prefetch (Settled wordAt stored)

structure FlatHart where
  regs : RevRegFile
  bytes : Nat → Byte

/-- An instruction of the manual on flat bytes. -/
def flatRun (plan : IsaPlan) (bytes : Nat → Byte) : FlatHart :=
  match plan.access with
  | .none => ⟨plan.finish 0, bytes⟩
  | .load addr len => ⟨plan.finish (word64 (flatLoad bytes addr.toNat len fun _ => 0)), bytes⟩
  | .store addr len value => ⟨plan.finish 0, flatStore bytes addr.toNat len (bytesOf value)⟩

section Manual
variable (program : BitVec 64 → Option Code)

def next (hart : FlatHart) : FlatHart :=
  match program hart.regs.rv64PC with
  | none => hart
  | some code => flatRun (isaStep rv64 code.size hart.regs code.base) hart.bytes

def stopped (hart : FlatHart) : Bool :=
  hart.regs.rv64PC == 0 || hart.regs.rv64PC == panFwareJump

/-- The hart after `n` steps, or where it stopped before. -/
def runFor (n : Nat) (hart : FlatHart) : FlatHart := Lockstep.upTo (next program) stopped n hart

def Loaded (bytes : Nat → Byte) : Prop :=
  ∀ pc code, program pc = some code → code.Encodes (wordAt (stored bytes) pc)

/-- The bytes from `addr` on are none of the program's. -/
def Apart (addr len : Nat) : Prop :=
  ∀ pc code, program pc = some code → ∀ index < code.size, ∀ step < len,
    addr + step ≠ (pc + BitVec.ofNat 64 index).toNat

/-- What is asked of an access: the bytes are valid, and a store leaves the program alone. -/
def Allowed (mem : RevMem) : IsaAccess → Prop
  | .none => True
  | .load addr len => ValidBytes mem addr.toNat len
  | .store addr len _ => ValidBytes mem addr.toNat len ∧ Apart program addr.toNat len

/-- The hart is at an instruction that the core executes as the manual says. -/
def Safe (host : Host) (feature : RevFeature) (mem : RevMem) (hart : FlatHart) : Prop :=
  ∃ code, program hart.regs.rv64PC = some code ∧ code.Offered feature ∧
    code.Kept host feature hart.regs ∧
    Allowed program mem (isaStep rv64 code.size hart.regs code.base).access

end Manual
section Words
variable {bytes other : BitVec 64 → BitVec 8}

theorem wordAt_congr {pc : BitVec 64} (same : ∀ index < 4,
    bytes (pc + BitVec.ofNat 64 index) = other (pc + BitVec.ofNat 64 index)) :
    wordAt bytes pc = wordAt other pc := by
  rw [wordAt, wordAt, LittleEndian.value_congr _ _ 4 same]

theorem wordAt_half_congr {pc : BitVec 64} (same : ∀ index < 2,
    bytes (pc + BitVec.ofNat 64 index) = other (pc + BitVec.ofNat 64 index)) :
    (wordAt bytes pc).setWidth 16 = (wordAt other pc).setWidth 16 := by
  have low : ∀ held : BitVec 64 → BitVec 8, (wordAt held pc).setWidth 16 =
      BitVec.ofNat 16 (LittleEndian.value (fun index => held (pc + BitVec.ofNat 64 index)) 2) := by
    intro held
    have cut : LittleEndian.value (fun index => held (pc + BitVec.ofNat 64 index)) 4 % 65536 =
        LittleEndian.value (fun index => held (pc + BitVec.ofNat 64 index)) 2 :=
      LittleEndian.value_mod _ 2 2
    apply BitVec.eq_of_toNat_eq
    rw [wordAt, BitVec.toNat_setWidth, BitVec.toNat_ofNat, BitVec.toNat_ofNat, ← cut]
    omega
  rw [low, low, LittleEndian.value_congr _ _ 2 same]

theorem encodes_congr {code : Code} {pc : BitVec 64} (same : ∀ index < code.size,
    bytes (pc + BitVec.ofNat 64 index) = other (pc + BitVec.ofNat 64 index))
    (encoded : code.Encodes (wordAt bytes pc)) : code.Encodes (wordAt other pc) := by
  cases code with
  | wide => exact (wordAt_congr same).symm.trans encoded
  | imm => exact (wordAt_half_congr same).symm.trans encoded
  | reg => exact (wordAt_half_congr same).symm.trans encoded
  | jump => exact (wordAt_half_congr same).symm.trans encoded
  | mem => exact (wordAt_half_congr same).symm.trans encoded

end Words
section Flat
variable {program : BitVec 64 → Option Code} {mem : RevMem}

theorem flatRun_loaded {plan : IsaPlan} {bytes : Nat → Byte}
    (allowed : Allowed program mem plan.access) (loaded : Loaded program bytes) :
    Loaded program (flatRun plan bytes).bytes := by
  unfold flatRun
  cases access : plan.access with
  | none => exact loaded
  | load => exact loaded
  | store addr len value =>
    rw [access] at allowed
    intro pc code placed
    refine encodes_congr ?_ (loaded pc code placed)
    intro index inside
    have outside : ¬ (addr.toNat ≤ (pc + BitVec.ofNat 64 index).toNat ∧
        (pc + BitVec.ofNat 64 index).toNat < addr.toNat + len) := by
      rintro ⟨above, below⟩
      exact allowed.2 pc code placed index inside
        ((pc + BitVec.ofNat 64 index).toNat - addr.toNat) (by omega) (by omega)
    exact (if_neg outside).symm

/-- The accesses of the manual have one to eight bytes. -/
def Bounded : IsaAccess → Prop
  | .none => True
  | .load _ len => 1 ≤ len ∧ len ≤ 8
  | .store _ len _ => 1 ≤ len ∧ len ≤ 8

theorem isaStep_bounded {w : Nat} (mode : Xlen w) (size : Nat) (regs : RevRegFile) (base : Base) :
    Bounded (isaStep mode size regs base).access := by
  cases base with
  | int insn =>
    cases insn with
    | i op rd rs1 imm => cases op <;> trivial
    | s op rs1 rs2 imm => exact BaseMem.storeLen_bounds op
    | b op rs1 rs2 imm =>
      rw [branchStep_done]
      trivial
    | u op rd imm => cases op <;> trivial
    | _ => trivial
  | _ => exact ⟨by decide, by decide⟩

-- An access on RevMem and the same access on its bytes.
theorem run_flat {plan : IsaPlan} (settled : Settled mem) (bounded : Bounded plan.access)
    (allowed : Allowed program mem plan.access) (hart : Nat) :
    ∃ after, plan.run hart mem = .ok ((flatRun plan (byteAt mem)).regs, after) ∧ Settled after ∧
      layout after = layout mem ∧
      ∀ vAddr, byteAt after vAddr = (flatRun plan (byteAt mem)).bytes vAddr := by
  obtain ⟨sized, coherent, positive⟩ := settled
  cases access : plan.access with
  | none =>
    refine ⟨mem, ?_, ⟨sized, coherent, positive⟩, rfl, ?_⟩
    · simp only [IsaPlan.run, flatRun, access]
    · simp only [flatRun, access, implies_true]
  | load addr len =>
    rw [access] at bounded allowed
    obtain ⟨nonempty, inside⟩ := bounded
    obtain ⟨after, read, unseen⟩ := readMem_valid sized coherent positive
      (Nat.le_trans inside (by decide)) (touchable_of_valid nonempty allowed) hart (fun _ => 0) 0
    refine ⟨after, ?_, Settled.unseen ⟨sized, coherent, positive⟩ unseen, unseen.layout, ?_⟩
    · simp only [IsaPlan.run, flatRun, access, read]
    · intro vAddr
      simp only [flatRun, access, unseen.view]
  | store addr len value =>
    rw [access] at bounded allowed
    obtain ⟨nonempty, inside⟩ := bounded
    obtain ⟨after, stored, coherent', same, bytes⟩ := storeLocal_valid sized coherent positive
      (Nat.le_trans inside (by decide)) (touchable_of_valid nonempty allowed.1) (bytesOf value)
    refine ⟨after, ?_, ⟨sized.of_layout same, coherent', ?_⟩, same, ?_⟩
    · simp only [IsaPlan.run, flatRun, access, RevMem.writeMem, stored]
    · rw [(layout_fields same).2]
      exact positive
    · intro vAddr
      simp only [flatRun, access, bytes]

end Flat
section Core

section Tables
variable (host : Host) (feature : RevFeature) (tables : Tables)
variable (coProc : Option (BitVec 32 → Bool)) (junk : RevRegFile → RevMem → RevInst)
variable (text : BitVec 64 → BitVec 32)

/-- DecodeInst on the prefetched word at the PC. What it leaves uninitialised is `junk`. -/
def coreDecode (regs : RevRegFile) (mem : RevMem) : Option Fetched :=
  match decodeInst feature tables coProc none (junk regs mem) (text (getPC feature regs)) with
  | .error _ => none
  | .ok decoded => some ⟨decoded.inst, decoded.entry, decoded.cost⟩

/-- The function that the entry is dispatched to, with its call into RevMem. -/
def coreExecute (entry : Nat) (inst : RevInst) (rand : BitVec 32) (regs : RevRegFile) (mem : RevMem) :
    Option (Outcome RevMem) :=
  match Dispatch.dispatch tables entry inst with
  | .error _ => none
  | .ok func =>
    match tableFunc host feature regs inst func with
    | none => none
    | some plan =>
      match runLocal plan 0 mem with
      | .error _ => none
      | .ok (regs, hazard, mem) =>
        some ⟨regs, mem, hazard, if plan.randCost then Pan.randCost feature rand else 0, false⟩

def coreMachine : Machine RevMem (BitVec 32) where
  feature := feature
  isFloat := Scoreboard.isFloatEntry tables
  decode := coreDecode feature tables coProc junk text
  execute := coreExecute host feature tables
  readVal := fun _ _ _ => none
  otherEcall := fun _ _ _ _ _ => none
  ctrl := fun _ => none

variable {regs result : RevRegFile} {mem after : RevMem} {decoded : Decoded} {func : ImplFunc}
  {plan : Plan}

theorem coreDecode_found (found : decodeInst feature tables coProc none (junk regs mem)
      (text (getPC feature regs)) = .ok decoded) :
    coreDecode feature tables coProc junk text regs mem =
      some ⟨decoded.inst, decoded.entry, decoded.cost⟩ := by
  rw [coreDecode, found]

theorem coreExecute_planned {entry : Nat} {inst : RevInst}
    (named : Dispatch.dispatch tables entry inst = .ok func)
    (planned : tableFunc host feature regs inst func = some plan)
    (ran : runLocal plan 0 mem = .ok (result, false, after)) (rand : BitVec 32) :
    coreExecute host feature tables entry inst rand regs mem = some ⟨result, after, false,
      if plan.randCost then Pan.randCost feature rand else 0, false⟩ := by
  rw [coreExecute, named]
  dsimp only
  rw [planned]
  dsimp only
  rw [ran]

end Tables

/-- A tick, or a read with which the prefetcher fills a stream between two ticks. -/
inductive Event where
  | tick (tick : Tick (BitVec 32))
  | fill (addr : BitVec 64)

def Event.busy : Event → Bool
  | .tick given => given.avail
  | .fill _ => false

def step (machine : Machine RevMem (BitVec 32)) (event : Event) (proc : RevProc RevMem) :
    Except Fault (Bool × RevProc RevMem) :=
  match event with
  | .tick tick => proc.clockTick machine tick
  | .fill addr =>
    match proc.memory.readMem 0 addr.toNat 4 (fun _ => 0) 0 with
    | .error _ => .error .fatal
    | .ok (_, mem) => .ok (true, { proc with memory := mem })

variable (host : Host) (feature : RevFeature) (coProc : Option (BitVec 32 → Bool))
variable (junk : RevRegFile → RevMem → RevInst) (text : BitVec 64 → BitVec 32)

theorem dispatch_wide (wide : feature.xlen = 64) :
    Dispatch.RunsOwnFunc (seedInstTable feature) := by
  rw [Dispatch.runsOwnFunc_iff_calls]
  intro call member
  have plain := Dispatch.callRuns_aligned feature call.1
    (Dispatch.enabledExts_aligned feature call member)
  obtain ⟨ext, opt⟩ := call
  cases opt with
  | false => exact plain
  | true =>
    obtain ⟨narrow, -⟩ := Dispatch.enabledExts_opt feature (.inr wide) _ member rfl
    simp [isRV32, wide] at narrow

theorem decode_planned (wide : feature.xlen = 64) {regs result : RevRegFile} {mem after : RevMem}
    {plan : Plan} (rand : BitVec 32)
    (planned : basePlan (tableFunc host feature regs) feature coProc (junk regs mem)
      (text (getPC feature regs)) = some plan)
    (ran : plan.run 0 mem = .ok (result, after)) :
    ∃ fetched outcome,
      (coreMachine host feature (seedInstTable feature) coProc junk text).decode regs mem =
        some fetched ∧ fetched.cost = 1 ∧
      (coreMachine host feature (seedInstTable feature) coProc junk text).execute fetched.entry
        (issued fetched) rand regs mem = some outcome ∧
      outcome.regs = result ∧ outcome.memory = after ∧ outcome.hazard = false ∧
      outcome.ecall = false := by
  have finished := BaseMem.runLocal_run plan 0 mem result after ran
  rw [basePlan] at planned
  cases found : decodeInst feature (seedInstTable feature) coProc none (junk regs mem)
      (text (getPC feature regs)) with
  | error fault => simp only [found, reduceCtorEq] at planned
  | ok decoded =>
    obtain ⟨row, listed, cost, flag⟩ := decodeInst_entry _ _ _ _ _ _ decoded found
    simp only [found, listed] at planned
    have one : decoded.cost = 1 :=
      cost.trans (Cost.seeded_cost feature (List.mem_of_getElem? listed))
    have named := dispatch_wide feature wide decoded.entry row
      (issued ⟨decoded.inst, decoded.entry, decoded.cost⟩) listed flag
    have stamped := (tableFunc_stamped host feature regs decoded.inst decoded.entry decoded.cost
      (some false) row.func).trans planned
    exact ⟨_, _, coreDecode_found feature _ coProc junk text found, one,
      coreExecute_planned host feature _ named stamped finished rand, rfl, rfl, rfl, rfl⟩

end Core
section Ticks
variable {σ ι : Type} {machine : Machine σ ι} {proc : RevProc σ} {ctx : RevThreadCtx} {tick : Tick ι}
  {fetched : Fetched} {outcome : Outcome σ}

variable (machine) in
/-- A core without a parent thread, a PAN queue and outstanding requests is done when its PC is where
the search for work begins. -/
theorem complete_root (found : proc.threadTable proc.activePID = some ctx) (root : ctx.parentPID = 0)
    (alone : proc.pExec = none) (valid : proc.hartToExec = true) : proc.complete machine =
      .ok (!(getPC machine.feature ctx.file.regs == 0 ||
        getPC machine.feature ctx.file.regs == panFwareJump), proc) := by
  have work : proc.findWork machine ctx.file = (true, proc) := by
    rw [RevProc.findWork, alone]
    exact ite_self _
  rw [RevProc.complete, file_found found]
  by_cases ended : getPC machine.feature ctx.file.regs = panFwareJump ∨
      getPC machine.feature ctx.file.regs = 0
  · have reported : (getPC machine.feature ctx.file.regs == 0 ||
        getPC machine.feature ctx.file.regs == panFwareJump) = true := by
      rw [Bool.or_eq_true, beq_iff_eq, beq_iff_eq]
      exact ended.symm
    dsimp only
    rw [if_pos ended, work, if_pos valid, found, reported]
    dsimp only
    rw [if_neg (not_not_intro root)]
    rfl
  · have reported : (getPC machine.feature ctx.file.regs == 0 ||
        getPC machine.feature ctx.file.regs == panFwareJump) = false := by
      rw [Bool.or_eq_false_iff, beq_eq_false_iff_ne, beq_eq_false_iff_ne]
      exact ⟨(not_or.mp ended).2, (not_or.mp ended).1⟩
    dsimp only
    rw [if_neg ended, reported]
    rfl

variable (machine) in
/-- A tick of a drained core that executes an instruction of cost 1 and waits for nothing. -/
theorem clockTick_issued (drained : Drained proc ctx) (root : ctx.parentPID = 0)
    (alone : proc.pExec = none) (running : Running machine.feature ctx.file.regs)
    (available : tick.avail = true)
    (decoded : machine.decode ctx.file.regs proc.memory = some fetched)
    (executed : machine.execute fetched.entry (issued fetched) tick.seed ctx.file.regs proc.memory =
      some outcome) (one : fetched.cost = 1) (calm : outcome.hazard = false)
    (plain : outcome.ecall = false) :
    ∃ after ctx', proc.clockTick machine tick =
        .ok (!(getPC machine.feature outcome.regs == 0 ||
          getPC machine.feature outcome.regs == panFwareJump), after) ∧
      Drained after ctx' ∧ ctx'.parentPID = 0 ∧ ctx'.file.regs = outcome.regs ∧
      after.pExec = none ∧ after.memory = outcome.memory := by
  have advanced := advance_staged drained running available decoded executed plain
  have staged := @staged_executed _ _ machine _ _ _ _ drained one plain
    (getPC machine.feature ctx.file.regs)
  rw [calm] at staged
  obtain ⟨retired, after, -⟩ := retire_done staged rfl
  have regs : (retiredFile machine (executedFile machine ctx.file fetched outcome)
      { issued fetched with hazard := some false }).regs = outcome.regs := by
    rw [retiredFile, dependencyClear_board, executedFile_eq]
  have completed := complete_root machine after.found root alone rfl
  dsimp only at completed
  rw [regs] at completed
  refine ⟨_, _, ?_, after, root, regs, alone, rfl⟩
  rw [RevProc.clockTick, advanced, retired]
  exact completed

variable (machine) in
theorem clockTick_stalled (drained : Drained proc ctx)
    (running : Running machine.feature ctx.file.regs) (absent : tick.avail = false) :
    ∃ after, proc.clockTick machine tick = .ok (true, after) ∧ Drained after ctx ∧
      after.pExec = proc.pExec ∧ after.memory = proc.memory := by
  have stalled : RevProc.prefetchInst machine tick ctx.file = false :=
    (prefetchInst_running running).trans absent
  obtain ⟨inst, pc, advanced⟩ := advance_stalledAt drained stalled
  have kept := stalledAt_drained drained inst pc
  exact ⟨_, clockTick_running advanced kept.found running, kept, rfl, rfl⟩

end Ticks
section Refinement
variable (host : Host) (feature : RevFeature) (coProc : Option (BitVec 32 → Bool))
variable (junk : RevRegFile → RevMem → RevInst) (program : BitVec 64 → Option Code)

/-- The core holds what the hart holds, and nothing is in its pipeline. `origin` has the valid
addresses. -/
structure Matches (origin : RevMem) (hart : FlatHart) (proc : RevProc RevMem) : Prop where
  ready : ∃ ctx, Drained proc ctx ∧ ctx.parentPID = 0 ∧ ctx.file.regs = hart.regs
  alone : proc.pExec = none
  bytes : byteAt proc.memory = hart.bytes
  settled : Settled proc.memory
  layout : layout proc.memory = layout origin
  loaded : Loaded program hart.bytes

theorem running_of {hart : FlatHart} (wide : feature.xlen = 64) (going : stopped hart = false) :
    Running feature hart.regs := by
  rw [stopped, Bool.or_eq_false_iff, beq_eq_false_iff_ne, beq_eq_false_iff_ne] at going
  rw [Running, getPC, if_neg (by rw [wide]; decide)]
  exact going

theorem getPC_wide (wide : feature.xlen = 64) (regs : RevRegFile) :
    getPC feature regs = regs.rv64PC := by
  rw [getPC, if_neg (by rw [wide]; decide)]

theorem validBytes_layout {mem after : RevMem} (same : layout after = layout mem) {addr len : Nat}
    (valid : ValidBytes mem addr len) : ValidBytes after addr len := by
  intro index inside
  rw [isValidVirtAddr_layout same]
  exact valid index inside

theorem allowed_layout {mem after : RevMem} (same : layout after = layout mem) {access : IsaAccess}
    (allowed : Allowed program mem access) : Allowed program after access := by
  cases access with
  | none => trivial
  | load => exact validBytes_layout same allowed
  | store => exact ⟨validBytes_layout same allowed.1, allowed.2⟩

variable {program} {origin : RevMem} {hart : FlatHart} {proc : RevProc RevMem}
variable (wide : feature.xlen = 64) (base : isModeEnabled feature .RV_I = true)
  {text : BitVec 64 → BitVec 32}
  (prefetched : ∀ pc code, program pc = some code → code.Encodes (text pc))
include wide base prefetched

theorem tick_moves (held : Matches program origin hart proc) (going : stopped hart = false)
    (safe : Safe program host feature origin hart) {tick : Tick (BitVec 32)}
    (available : tick.avail = true) :
    ∃ after, proc.clockTick (coreMachine host feature (seedInstTable feature) coProc junk text) tick =
        .ok (!stopped (next program hart), after) ∧
      Matches program origin (next program hart) after := by
  obtain ⟨ctx, drained, root, regs⟩ := held.ready
  obtain ⟨code, placed, offered, kept, allowed⟩ := safe
  have running := running_of feature wide going
  rw [← regs] at running
  have encoded := prefetched _ code placed
  rw [← getPC_wide feature wide, ← regs] at encoded
  obtain ⟨plan, planned, means⟩ := code_means host feature coProc (junk ctx.file.regs proc.memory)
    ctx.file.regs wide base offered (regs ▸ kept) encoded
  obtain ⟨after, ran, settled, same, bytes⟩ := run_flat held.settled
    (isaStep_bounded rv64 code.size hart.regs code.base)
    (allowed_layout program held.layout allowed) 0
  have moved : next program hart =
      flatRun (isaStep rv64 code.size hart.regs code.base) hart.bytes := by
    rw [next, placed]
  rw [held.bytes, ← moved] at ran bytes
  obtain ⟨fetched, outcome, decoded, one, executed, left, stored, calm, plain⟩ :=
    decode_planned host feature coProc junk text wide tick.seed planned
      ((means.run 0 proc.memory).trans (regs ▸ ran))
  obtain ⟨last, ctx', ticked, drained', root', regs', alone, memory⟩ :=
    clockTick_issued (coreMachine host feature (seedInstTable feature) coProc junk text) drained root
      held.alone running available decoded executed one calm plain
  have reported : (getPC feature outcome.regs == 0 || getPC feature outcome.regs == panFwareJump) =
      stopped (next program hart) := by
    rw [getPC_wide feature wide, left]
    rfl
  refine ⟨last, ticked.trans ?_, ⟨ctx', drained', root', regs'.trans left⟩, alone, ?_, ?_, ?_, ?_⟩
  · rw [← reported]
    rfl
  · rw [memory, stored]
    exact funext bytes
  · rw [memory, stored]
    exact settled
  · rw [memory, stored]
    exact same.trans held.layout
  · rw [moved]
    exact flatRun_loaded allowed held.loaded

omit base prefetched in
theorem idle_waits (held : Matches program origin hart proc) (going : stopped hart = false)
    {event : Event} (fits : ∀ addr, event = .fill addr → ValidBytes origin addr.toNat 4)
    (idle : event.busy = false) :
    ∃ after, step (coreMachine host feature (seedInstTable feature) coProc junk text) event proc =
        .ok (true, after) ∧ Matches program origin hart after := by
  cases event with
  | tick tick =>
    obtain ⟨ctx, drained, root, regs⟩ := held.ready
    have running := running_of feature wide going
    rw [← regs] at running
    obtain ⟨after, ticked, drained', exec, memory⟩ := clockTick_stalled
      (coreMachine host feature (seedInstTable feature) coProc junk text) drained running idle
    refine ⟨after, ticked, ⟨ctx, drained', root, regs⟩, exec.trans held.alone, ?_, ?_, ?_,
      held.loaded⟩
    · rw [memory, held.bytes]
    · rw [memory]
      exact held.settled
    · rw [memory]
      exact held.layout
  | fill addr =>
    have settled := held.settled
    obtain ⟨mem, read, unseen⟩ := readMem_valid settled.sized settled.coherent settled.positive
      (by decide) (touchable_of_valid (by decide) (validBytes_layout held.layout (fits addr rfl))) 0
      (fun _ => 0) 0
    obtain ⟨ctx, drained, root, regs⟩ := held.ready
    refine ⟨{ proc with memory := mem }, by simp only [step, read], ⟨ctx, ?_, root, regs⟩, held.alone,
      (funext unseen.view).trans held.bytes, settled.unseen unseen, unseen.layout.trans held.layout,
      held.loaded⟩
    exact ⟨⟨drained.found, drained.settled, drained.awake, drained.free, drained.quiet⟩,
      drained.pipeline, drained.cost, drained.board⟩

theorem matches_run (held : Matches program origin hart proc) (going : stopped hart = false)
    (safe : ∀ n, stopped (runFor program n hart) = false →
      Safe program host feature origin (runFor program n hart))
    {events : List Event} (fills : ∀ addr, .fill addr ∈ events → ValidBytes origin addr.toNat 4) :
    ∃ after, Lockstep.run (step (coreMachine host feature (seedInstTable feature) coProc junk text))
        events proc = .ok (!stopped (runFor program (events.countP Event.busy) hart), after) ∧
      Matches program origin (runFor program (events.countP Event.busy) hart) after := by
  have simulates : Lockstep.Simulates (next program) stopped
      (step (coreMachine host feature (seedInstTable feature) coProc junk text)) Event.busy
      (fun event => ∀ addr, event = .fill addr → ValidBytes origin addr.toNat 4)
      (Safe program host feature origin) (Matches program origin) := by
    constructor
    · intro event hart other held going safe _ busy
      cases event with
      | tick tick =>
        exact tick_moves host feature coProc junk wide base prefetched held going safe busy
      | fill addr => cases busy
    · intro event hart other held going fits idle
      exact idle_waits host feature coProc junk wide held going fits idle
  exact simulates.run (fun event listed addr same => fills addr (same ▸ listed)) held going safe

end Refinement

/-- A program that stays within what the core executes as the manual says, from a core that was reset.
Each tick that finds its instruction is one step of the manual, ticks that stall and the reads of the
prefetcher are none, and the core reports its end with the step that reaches it. -/
theorem program_refines (host : Host) (feature : RevFeature) (coProc : Option (BitVec 32 → Bool))
    (junk : RevRegFile → RevMem → RevInst) (program : BitVec 64 → Option Code)
    (wide : feature.xlen = 64) (base : isModeEnabled feature .RV_I = true) {proc : RevProc RevMem}
    {file : CtxFile} (initial : Proc.Initial proc) (awake : proc.halted = false)
    (free : proc.singleStep = false) (alone : proc.pExec = none) (opened : proc.file = .ok file)
    (settled : Settled proc.memory) (loaded : Loaded program (byteAt proc.memory))
    (going : stopped ⟨file.regs, byteAt proc.memory⟩ = false)
    (safe : ∀ n, stopped (runFor program n ⟨file.regs, byteAt proc.memory⟩) = false →
      Safe program host feature proc.memory (runFor program n ⟨file.regs, byteAt proc.memory⟩))
    {events : List Event}
    (fills : ∀ addr, .fill addr ∈ events → ValidBytes proc.memory addr.toNat 4) :
    ∃ after last, last = runFor program (events.countP Event.busy) ⟨file.regs, byteAt proc.memory⟩ ∧
      Lockstep.run (step (coreMachine host feature (seedInstTable feature) coProc junk
        (wordAt (stored (byteAt proc.memory))))) events proc = .ok (!stopped last, after) ∧
      after.file.map CtxFile.regs = .ok last.regs ∧ byteAt after.memory = last.bytes ∧
      Loaded program last.bytes := by
  have ⟨ctx, drained⟩ := initial_drained initial awake free
  have ⟨first, found, root, _⟩ := initial.first
  obtain rfl := Option.some.inj (found.symm.trans drained.found)
  obtain rfl := Except.ok.inj (opened.symm.trans (file_found found))
  have held : Matches program proc.memory ⟨first.file.regs, byteAt proc.memory⟩ proc :=
    ⟨⟨first, drained, root, rfl⟩, alone, rfl, settled, rfl, loaded⟩
  obtain ⟨after, ran, kept⟩ :=
    matches_run host feature coProc junk wide base loaded held going safe fills
  obtain ⟨ctx', drained', -, regs⟩ := kept.ready
  refine ⟨after, _, rfl, ran, ?_, kept.bytes, kept.loaded⟩
  rw [file_found drained'.found]
  exact congrArg Except.ok regs

section Square

def listed (items : List (BitVec 64 × Code)) (pc : BitVec 64) : Option Code :=
  (items.find? fun item => item.1 == pc).map Prod.snd

theorem mem_of_listed {items : List (BitVec 64 × Code)} {pc : BitVec 64} {code : Code}
    (placed : listed items pc = some code) : (pc, code) ∈ items := by
  obtain ⟨item, found, same⟩ := Option.map_eq_some_iff.mp placed
  have here := List.find?_some found
  simp only [beq_iff_eq] at here
  rw [← here, ← same]
  exact List.mem_of_find?_eq_some found

/-- `c.li x10, 5`, `mul x10, x10, x10`, `sd x10, -8(x2)` and a return to 0. -/
def square : List (BitVec 64 × Code) :=
  [(1310720, .imm (.ci .li 10 5)), (1310722, .wide (.r .mul 10 10 10)),
    (1310726, .wide (.s .sd 2 10 (-8))), (1310730, .wide (.i .jalr 0 1 0))]

def squareImage : BitVec 112 :=
  Manual.encode (.i .jalr 0 1 0) ++ Manual.encode (.s .sd 2 10 (-8)) ++
    Manual.encode (.r .mul 10 10 10) ++ (ManualCompressed.CImm.ci .li 10 5).encode

def squareRegs : RevRegFile :=
  { (default : RevRegFile) with
    rv64 := fun index => if index = 2 then 1572864 else 0
    rv64PC := 1310720 }

def squareBytes : Nat → Byte := flatStore (fun _ => 0) 1310720 14 (bytesOf squareImage)

def rv64imc : RevFeature := { features := 70, xlen := 64, minCost := 1, maxCost := 1 }

theorem square_loaded : Loaded (listed square) squareBytes := by
  have each : ∀ item ∈ square, item.2.Encodes (wordAt (stored squareBytes) item.1) := by
    simp only [square, List.forall_mem_cons, List.not_mem_nil, false_imp_iff, implies_true, and_true]
    refine ⟨?_, ?_, ?_, ?_⟩
    · show (wordAt (stored squareBytes) 1310720).setWidth 16 = _
      decide
    · show wordAt (stored squareBytes) 1310722 = _
      decide
    · show wordAt (stored squareBytes) 1310726 = _
      decide
    · show wordAt (stored squareBytes) 1310730 = _
      decide
  intro pc code placed
  exact each (pc, code) (mem_of_listed placed)

theorem square_outside {pc : BitVec 64} {code : Code} (placed : listed square pc = some code)
    (index : Nat) (inside : index < code.size) : (pc + BitVec.ofNat 64 index).toNat < 1310734 := by
  have each : ∀ item ∈ square, ∀ index < item.2.size,
      (item.1 + BitVec.ofNat 64 index).toNat < 1310734 := by
    decide
  exact each (pc, code) (mem_of_listed placed) index inside

def squareStart : FlatHart := ⟨squareRegs, squareBytes⟩

theorem square_safe (host : Host) {mem : RevMem}
    (same : layout mem = layout (RevMem.new 2097152 16 1 0)) :
    ∀ n, stopped (runFor (listed square) n squareStart) = false →
      Safe (listed square) host rv64imc mem (runFor (listed square) n squareStart) := by
  apply Lockstep.every_next
  · exact ⟨.imm (.ci .li 10 5), by decide, ⟨by decide, trivial⟩, trivial, trivial⟩
  apply Lockstep.every_next
  · exact ⟨.wide (.r .mul 10 10 10), by decide, fun _ => by decide, .inr trivial, trivial⟩
  apply Lockstep.every_next
  · refine ⟨.wide (.s .sd 2 10 (-8)), by decide, fun _ => by decide, trivial, ?_⟩
    have place : (effective rv64 (next (listed square) (next (listed square) squareStart)).regs 2
        (-8)).toNat = 1572856 := by
      decide
    have valid : ValidBytes mem 1572856 8 := by
      intro index inside
      rw [isValidVirtAddr_layout same]
      exact (valid_stack_only 16 _).mpr ⟨by omega, by omega⟩
    have apart : Apart (listed square) 1572856 8 := by
      intro pc code placed index inside step _
      have below := square_outside placed index inside
      omega
    rw [← place] at valid apart
    exact ⟨valid, apart⟩
  apply Lockstep.every_next
  · exact ⟨.wide (.i .jalr 0 1 0), by decide, fun _ => by decide, trivial, trivial⟩
  · exact Lockstep.every_halted _ _ (by decide)

theorem square_memory : ∃ mem, Settled mem ∧ layout mem = layout (RevMem.new 2097152 16 1 0) ∧
    byteAt mem = squareBytes := by
  have sized := sized_stack_only 16
  have valid : Touchable (RevMem.new 2097152 16 1 0) 1310720 14 := by
    apply touchable_of_valid (by decide)
    intro step inside
    exact (valid_stack_only 16 _).mpr ⟨by omega, by omega⟩
  have ⟨after, _, coherent, same, bytes⟩ :=
    storeLocal_valid sized (untouched_new _ _ _ _).coherent (by decide) (by decide) valid
      (bytesOf squareImage)
  have zeroed : byteAt (RevMem.new 2097152 16 1 0) = fun _ => 0 :=
    funext (untouched_new 2097152 16 1 0).byteAt
  refine ⟨after, ⟨sized.of_layout same, coherent, ?_⟩, same, funext fun vAddr => ?_⟩
  · rw [(layout_fields same).2]
    decide
  · rw [bytes, zeroed]
    rfl

def zeroHost : Host := ⟨0, fun _ _ => 0, fun _ => 0, fun _ => 0⟩

def squareEvents : List Event :=
  [.tick ⟨false, 0⟩, .tick ⟨true, 0⟩, .tick ⟨true, 0⟩, .tick ⟨true, 0⟩, .fill 1310736,
    .tick ⟨true, 0⟩]

-- A stall, three instructions, a read of the prefetcher, and the return: 25 is stored and the core done.
theorem program_refines_square : ∃ mem after,
    Lockstep.run (step (coreMachine zeroHost rv64imc (seedInstTable rv64imc) none
      (fun _ _ => default) (wordAt (stored (byteAt mem)))))
      squareEvents (Proc.freshProc squareRegs mem) = .ok (false, after) ∧
    byteAt after.memory 1572856 = 25 := by
  obtain ⟨mem, settled, same, bytes⟩ := square_memory
  have fills : ∀ addr, .fill addr ∈ squareEvents → ValidBytes mem addr.toNat 4 := by
    intro addr member index inside
    simp only [squareEvents, List.mem_cons, List.not_mem_nil, reduceCtorEq, Event.fill.injEq,
      false_or, or_false] at member
    rw [isValidVirtAddr_layout same, member]
    exact (valid_stack_only 16 _).mpr ⟨by simp; omega, by simp; omega⟩
  have safe : ∀ n, stopped (runFor (listed square) n ⟨squareRegs, byteAt mem⟩) = false →
      Safe (listed square) zeroHost rv64imc mem
        (runFor (listed square) n ⟨squareRegs, byteAt mem⟩) := by
    rw [bytes]
    exact square_safe zeroHost same
  obtain ⟨after, last, ended, ran, -, held, -⟩ := program_refines zeroHost rv64imc none
    (fun _ _ => default) (listed square) rfl (by decide) (Proc.freshProc_initial squareRegs mem) rfl
    rfl rfl rfl settled (bytes ▸ square_loaded) rfl safe fills
  rw [show (Proc.freshProc squareRegs mem).memory = mem from rfl, bytes] at ended
  refine ⟨mem, after, ran.trans ?_, ?_⟩
  · rw [ended]
    rfl
  · rw [held, ended]
    rfl

end Square
end RevCPU.Program
