import RevCPU.Completion
import RevCPU.Seed
import RevCPU.Threads
/-!
What the cost of an instruction does to its retirement. The cost is a row's default or what an override
table of the user gives it, and the retirement lowers the cost of the front only to raise it again
where it has not reached 0.
-/
namespace RevCPU.Cost
open Feature InstTable RegFile Proc Seed

section Tables

/-- ReadOverrideTables on the words of a file. A cost is what `std::stoi` makes of it, and the names are
those of the table before. -/
def readOverrideTables (names : OnceMap.Map (List Char) Nat) :
    List (List Char × Int) → List RevInstEntry → Option (List RevInstEntry)
  | [], table => some table
  | (inst, cost) :: rest, table =>
    match OnceMap.find names inst with
    | none => none
    | some entry =>
      readOverrideTables names rest
        (table.modify entry fun row => { row with cost := BitVec.ofInt 32 cost })

/-- The seeded tables with an override table read over them. -/
def overridden (feature : RevFeature) (values : List (List Char × Int)) :
    Option (List RevInstEntry) :=
  readOverrideTables (nameToEntry (seedInstTable feature)) values (seedInstTable feature).instTable

theorem seeded_cost (feature : RevFeature) {row : RevInstEntry}
    (member : row ∈ (seedInstTable feature).instTable) : row.cost = 1 := by
  have defaults : ∀ ext ∈ allExts, ∀ row ∈ ext.table ++ (ext.ctable ++ ext.otable), row.cost = 1 := by
    decide
  rw [seedInstTable_instTable] at member
  have ⟨call, enabled, appends⟩ := List.mem_flatMap.mp member
  refine enabledExts_forall feature _ defaults call enabled row ?_
  rw [appended] at appends
  rcases List.mem_append.mp appends with base | optional
  · exact List.mem_append_left _ base
  · apply List.mem_append_right
    split at optional
    · rcases List.mem_append.mp optional with compressed | rest
      · exact List.mem_append_left _ compressed
      · split at rest
        · exact List.mem_append_right _ rest
        · cases rest
    · cases optional

end Tables

section Ticks
variable {σ ι : Type} (machine : Machine σ ι)

/-- The tick in front of the retirement. -/
def stage (tick : Tick ι) (proc : RevProc σ) : Except Fault (RevProc σ) :=
  match proc.switchCtx machine.feature with
  | .error fault => .error fault
  | .ok proc =>
    match proc.fetch machine tick with
    | .error fault => .error fault
    | .ok proc => proc.trigger machine tick

/-- Clock ticks in a row. Behind each the memory and the PAN may do their work. -/
def Clocked (ticks : Nat → Tick ι) (states : Nat → RevProc σ) (count : Nat) : Prop :=
  ∀ index < count, ∃ flag ticked,
    (states index).clockTick machine (ticks index) = .ok (flag, ticked) ∧
      Outside ticked (states (index + 1))

/-- The tick decodes an instruction and executes it, which is then alone in the pipeline and whose load
hazard is clear. -/
structure Executes (tick : Tick ι) (proc : RevProc σ) (fetched : Fetched) (inst : RevInst) :
    Prop where
  empty : proc.pipeline = []
  decoded : ∃ switched file, proc.switchCtx machine.feature = .ok switched ∧
    switched.file = .ok file ∧ file.cost = 0 ∧ switched.halted = false ∧
    RevProc.prefetchInst machine tick file = true ∧
    machine.decode file.regs switched.memory = some fetched
  staged : ∃ after, stage machine tick proc = .ok after ∧ after.pipeline = [inst]
  clear : inst.hazard = some false

/-- The instruction at the front of the pipeline, whatever its load hazard. -/
def InFront (inst : RevInst) (proc : RevProc σ) : Prop :=
  ∃ hazard rest, proc.pipeline = { inst with hazard := hazard } :: rest

/-- The instruction is at the front after fewer ticks than its cost; after as many it has retired, and the
hart has the cost 0. -/
def Honoured (inst : RevInst) (states : Nat → RevProc σ) (cost : Nat) : Prop :=
  (∀ count, 0 < count → count ≤ cost → (InFront inst (states count) ↔ count < cost)) ∧
    ∃ file, (states cost).file = .ok file ∧ file.cost = 0

variable {machine}

theorem advance_staged (tick : Tick ι) (proc : RevProc σ) :
    proc.advance machine tick =
      match stage machine tick proc with
      | .error fault => .error fault
      | .ok staged => staged.retire machine := by
  rw [RevProc.advance, stage]
  cases proc.switchCtx machine.feature with
  | error fault => rfl
  | ok switched =>
    dsimp only
    cases switched.fetch machine tick with
    | error fault => rfl
    | ok fetched => rfl

-- Only the hazard of the last instruction changes, and the first stays the first.
theorem dropLast_front {pipeline rest : List RevInst} {front back : RevInst} (hazard : Option Bool)
    (starts : pipeline = front :: rest) (ends : pipeline.getLast? = some back) :
    ∃ first rest', pipeline.dropLast ++ [{ back with hazard := hazard }] =
      { front with hazard := first } :: rest' := by
  cases rest with
  | nil =>
    subst starts
    cases ends
    exact ⟨hazard, [], rfl⟩
  | cons second rest =>
    subst starts
    exact ⟨front.hazard, _, rfl⟩

def pushed (proc : RevProc σ) : List RevInst :=
  if proc.pendingCtxSwitch then proc.pipeline
  else proc.pipeline ++ [{ proc.inst with hazard := some false }]

theorem issue_pipeline {tick : Tick ι} {proc after : RevProc σ} {file : CtxFile}
    (issued : proc.issue machine tick file = .ok after) :
    ∃ back hazard, (pushed proc).getLast? = some back ∧
      after.pipeline = (pushed proc).dropLast ++ [{ back with hazard := hazard }] := by
  unfold RevProc.issue at issued
  dsimp only at issued
  split at issued
  · cases issued
  · rename_i back last
    split at issued
    · cases issued
    · split at issued
      · split at issued
        · cases issued
        · cases issued
          exact ⟨back, _, last, rfl⟩
      · cases issued
        exact ⟨back, _, last, rfl⟩

theorem fetch_pipeline {tick : Tick ι} {proc after : RevProc σ}
    (fetched : proc.fetch machine tick = .ok after) : after.pipeline = proc.pipeline := by
  unfold RevProc.fetch at fetched
  split at fetched
  · cases fetched
  · split at fetched
    · dsimp only at fetched
      split at fetched
      · cases fetched
      · cases fetched
        rfl
    · cases fetched
      rfl

theorem trigger_pipeline {tick : Tick ι} {proc after : RevProc σ}
    (triggered : proc.trigger machine tick = .ok after) :
    after.pipeline = proc.pipeline ∨ proc.hartToExec = true ∧
      ∃ back hazard, (pushed proc).getLast? = some back ∧
        after.pipeline = (pushed proc).dropLast ++ [{ back with hazard := hazard }] := by
  unfold RevProc.trigger at triggered
  split at triggered
  · cases triggered
  · split at triggered
    · rename_i file opened test
      dsimp only at triggered
      split at triggered
      · cases triggered
      · rename_i next issued
        have kept : after.pipeline = next.pipeline := by
          split at triggered
          · cases triggered
            rfl
          · cases triggered
            rfl
        rw [kept]
        split at issued
        · cases issued
          exact .inl rfl
        · exact .inr ⟨test.1, issue_pipeline issued⟩
    · cases triggered
      exact .inl rfl

theorem stage_front {tick : Tick ι} {proc after : RevProc σ} {inst : RevInst}
    (front : InFront inst proc) (staged : stage machine tick proc = .ok after) :
    InFront inst after := by
  have ⟨hazard, rest, starts⟩ := front
  have settled : proc.switchCtx machine.feature = .ok proc := by
    rw [RevProc.switchCtx, if_neg (by simp [starts])]
  rw [stage, settled] at staged
  dsimp only at staged
  split at staged
  · cases staged
  · rename_i fetched fetches
    have same := fetch_pipeline fetches
    rcases trigger_pipeline staged with kept | ⟨-, back, changed, last, kept⟩
    · exact ⟨hazard, rest, by rw [kept, same, starts]⟩
    · have starts' : ∃ rest', pushed fetched = { inst with hazard := hazard } :: rest' := by
        rw [pushed, same, starts]
        split
        · exact ⟨rest, rfl⟩
        · exact ⟨_, List.cons_append⟩
      obtain ⟨rest', head⟩ := starts'
      obtain ⟨first, tail, result⟩ := dropLast_front changed head last
      exact ⟨first, tail, kept.trans result⟩

-- Lowered from at least 2, the cost does not reach 0 and is raised again.
theorem retire_front {proc after : RevProc σ} {inst : RevInst} (front : InFront inst proc)
    (several : 2 ≤ inst.cost.toNat) (retired : proc.retire machine = .ok after) :
    after = proc := by
  have ⟨hazard, rest, starts⟩ := front
  have positive : (0 : BitVec 32) < inst.cost := by
    rw [BitVec.lt_def]
    exact Nat.lt_of_lt_of_le Nat.two_pos several
  have stays : inst.cost - 1 ≠ 0 := by
    intro zero
    have one : inst.cost = 1 := by
      rw [← BitVec.sub_add_cancel inst.cost 1, zero]
      rfl
    rw [one] at several
    exact absurd several (by decide)
  rw [RevProc.retire, starts] at retired
  dsimp only at retired
  rw [if_pos positive, if_neg (fun done => stays done.1), BitVec.sub_add_cancel] at retired
  cases retired
  rw [← starts]

theorem retire_last {proc after : RevProc σ} {inst : RevInst} (alone : proc.pipeline = [inst])
    (last : inst.cost = 1) (clear : inst.hazard = some false)
    (retired : proc.retire machine = .ok after) :
    after.pipeline = [] ∧ ∃ file, after.file = .ok file ∧ file.cost = 0 := by
  have positive : (0 : BitVec 32) < inst.cost := by rw [last]; decide
  have lowered : inst.cost - 1 = 0 := by rw [last]; decide
  rw [RevProc.retire, alone] at retired
  dsimp only at retired
  rw [if_pos positive, if_pos ⟨lowered, clear⟩] at retired
  split at retired
  · cases retired
  · rename_i file opened
    have ⟨ctx, found, _⟩ := file_ok opened
    cases retired
    exact ⟨rfl, _, file_found (setFile_found found _), rfl⟩

theorem endChild_found (proc : RevProc σ) (ctx : RevThreadCtx) :
    (endChild proc ctx).threadTable (endChild proc ctx).activePID =
      some { ctx with state := .Dead } :=
  Function.update_self _ _ _

theorem complete_cost {proc after : RevProc σ} {flag : Bool} {file : CtxFile}
    (completed : proc.complete machine = .ok (flag, after)) (opened : proc.file = .ok file) :
    ∃ file', after.file = .ok file' ∧ file'.cost = file.cost := by
  have ⟨ctx, found, result⟩ := complete_cases completed
  obtain rfl := Except.ok.inj (opened.symm.trans (file_found found))
  rcases result with ⟨-, -, rfl⟩ | ⟨-, regs, exec, work, rest⟩
  · exact ⟨_, opened, rfl⟩
  · have searched := setFile_found found { ctx.file with regs := regs }
    have left : ∀ exec, RevProc.file { proc.setFile { ctx.file with regs := regs } with pExec := exec } =
        .ok { ctx.file with regs := regs } := fun _ => file_found searched
    rw [work] at rest
    rcases rest with ⟨-, -, -, rfl⟩ | ⟨-, -, -, rfl⟩ | ⟨-, rfl, -⟩
    · exact ⟨_, file_found (endChild_found _ _), rfl⟩
    · exact ⟨_, left exec, rfl⟩
    · exact ⟨_, left exec, rfl⟩

theorem outside_front {proc after : RevProc σ} {inst : RevInst} (changed : Outside proc after)
    (front : InFront inst proc) : InFront inst after := by
  have ⟨hazard, rest, starts⟩ := front
  have same := changed.pipeline
  rw [starts] at same
  cases pipeline : after.pipeline with
  | nil => simp [pipeline] at same
  | cons first others =>
    rw [pipeline] at same
    have heads := congrArg (fun other : RevInst => { other with hazard := first.hazard })
      (List.cons.inj same).1
    exact ⟨first.hazard, others, pipeline.trans (congrArg (· :: others) heads)⟩

theorem outside_cost {proc after : RevProc σ} {file : CtxFile} (changed : Outside proc after)
    (opened : proc.file = .ok file) : ∃ file', after.file = .ok file' ∧ file'.cost = file.cost := by
  have ⟨ctx, found, same⟩ := file_ok opened
  have ⟨regs, table⟩ := changed.active
  rw [found, Option.map_some, ← changed.activePID] at table
  exact ⟨{ ctx.file with regs := regs }, file_found table, by rw [← same]⟩

theorem clockTick_front {tick : Tick ι} {proc after : RevProc σ} {flag : Bool} {inst : RevInst}
    (several : 2 ≤ inst.cost.toNat)
    (front : ∀ staged, stage machine tick proc = .ok staged → InFront inst staged)
    (ticked : proc.clockTick machine tick = .ok (flag, after)) : InFront inst after := by
  rw [RevProc.clockTick, advance_staged] at ticked
  cases staging : stage machine tick proc with
  | error fault =>
    rw [staging] at ticked
    cases ticked
  | ok staged =>
    rw [staging] at ticked
    dsimp only at ticked
    split at ticked
    · cases ticked
    · rename_i retired retires
      obtain rfl := retire_front (front staged staging) several retires
      have ⟨hazard, rest, starts⟩ := front retired staging
      exact ⟨hazard, rest, (Completion.complete_keeps ticked).2.trans starts⟩

theorem switchCtx_pipeline {feature : RevFeature} {proc after : RevProc σ}
    (empty : proc.pipeline = []) (switched : proc.switchCtx feature = .ok after) :
    after.pipeline = [] := by
  rcases Threads.switchCtx_cases switched with ⟨-, rfl⟩ | ⟨-, -, ctx, -, rfl⟩
  · exact empty
  · exact empty

theorem fetch_cost {tick : Tick ι} {proc after : RevProc σ} {file : CtxFile} {fetched : Fetched}
    (opened : proc.file = .ok file) (zero : file.cost = 0) (awake : proc.halted = false)
    (buffered : RevProc.prefetchInst machine tick file = true)
    (decoded : machine.decode file.regs proc.memory = some fetched)
    (fetches : proc.fetch machine tick = .ok after) :
    after.hartToExec = false ∨ after.inst.cost = fetched.cost := by
  rw [RevProc.fetch, opened] at fetches
  dsimp only at fetches
  rw [if_pos ⟨zero, awake⟩, RevProc.decodeNext, if_pos buffered, decoded] at fetches
  cases fetches
  dsimp only
  split
  · rename_i blocked
    exact .inl (by rw [blocked]; rfl)
  · exact .inr rfl

theorem Executes.cost {tick : Tick ι} {proc : RevProc σ} {fetched : Fetched} {inst : RevInst}
    (executes : Executes machine tick proc fetched inst) : inst.cost = fetched.cost := by
  have ⟨switched, file, switches, opened, zero, awake, buffered, decoded⟩ := executes.decoded
  have ⟨after, staged, alone⟩ := executes.staged
  have empty := switchCtx_pipeline executes.empty switches
  rw [stage, switches] at staged
  dsimp only at staged
  split at staged
  · cases staged
  · rename_i next fetches
    have none := (fetch_pipeline fetches).trans empty
    rcases trigger_pipeline staged with kept | ⟨valid, back, hazard, last, kept⟩
    · rw [kept, none] at alone
      cases alone
    · rcases fetch_cost opened zero awake buffered decoded fetches with stopped | priced
      · rw [valid] at stopped
        cases stopped
      · rw [kept] at alone
        rw [pushed, none] at last alone
        split at last
        · cases last
        · rename_i settled
          rw [if_neg settled] at alone
          cases last
          cases alone
          exact priced

/-- The cost of an instruction is honoured where it is 1. -/
theorem cost_honoured_iff {ticks : Nat → Tick ι} {states : Nat → RevProc σ} {fetched : Fetched}
    {inst : RevInst} (positive : 1 ≤ fetched.cost.toNat)
    (executes : Executes machine (ticks 0) (states 0) fetched inst)
    (clocked : Clocked machine ticks states fetched.cost.toNat) :
    Honoured inst states fetched.cost.toNat ↔ fetched.cost = 1 := by
  have cost := executes.cost
  have ⟨staged, staging, alone⟩ := executes.staged
  constructor
  · -- A front with a larger cost is in front after every tick.
    intro honoured
    by_contra several
    have large : 2 ≤ fetched.cost.toNat := by
      have unequal : fetched.cost.toNat ≠ 1 := fun one => several (BitVec.eq_of_toNat_eq one)
      omega
    have kept : ∀ count, 0 < count → count ≤ fetched.cost.toNat → InFront inst (states count) := by
      intro count
      induction count with
      | zero => exact fun impossible => absurd impossible (Nat.lt_irrefl 0)
      | succ count ih =>
        intro _ bound
        have ⟨flag, ticked, ticks, changed⟩ := clocked count bound
        apply outside_front changed
        refine clockTick_front (by rw [cost]; exact large) ?_ ticks
        intro staged' staging'
        cases count with
        | zero =>
          obtain rfl := Except.ok.inj (staging.symm.trans staging')
          exact ⟨inst.hazard, [], alone⟩
        | succ count =>
          exact stage_front (ih (Nat.succ_pos count) (Nat.le_of_succ_le bound)) staging'
    have front := kept _ positive (Nat.le_refl _)
    exact absurd ((honoured.1 _ positive (Nat.le_refl _)).mp front) (Nat.lt_irrefl _)
  · intro one
    have single : fetched.cost.toNat = 1 := congrArg BitVec.toNat one
    rw [single] at clocked ⊢
    have ⟨flag, ticked, ticks, changed⟩ := clocked 0 Nat.zero_lt_one
    rw [RevProc.clockTick, advance_staged, staging] at ticks
    dsimp only at ticks
    split at ticks
    · cases ticks
    · rename_i retired retires
      have ⟨empty, file, opened, zero⟩ := retire_last alone (cost.trans one) executes.clear retires
      have ⟨completed, opened', same⟩ := complete_cost ticks opened
      have ⟨file', opened'', same'⟩ := outside_cost changed opened'
      constructor
      · intro count above below
        obtain rfl : count = 1 := Nat.le_antisymm below above
        constructor
        · rintro ⟨hazard, rest, starts⟩
          have pipeline := changed.pipeline
          rw [starts, (Completion.complete_keeps ticks).2, empty] at pipeline
          cases pipeline
        · intro less
          exact absurd less (Nat.lt_irrefl 1)
      · exact ⟨file', opened'', same'.trans (same.trans zero)⟩

end Ticks

section Programs

def rv64i : RevFeature := { features := 2, xlen := 64, minCost := 1, maxCost := 1 }

def addi : List Char := ['a', 'd', 'd', 'i']

def addiEntry : Nat := 18

/-- A core on which every PC holds `addi x0, x0, 0`. -/
def addiMachine (table : List RevInstEntry) : Machine Unit Unit where
  feature := rv64i
  isFloat := fun _ => false
  decode := fun _ _ =>
    table[addiEntry]?.map fun row => ⟨{ (default : RevInst) with instSize := 4 }, addiEntry, row.cost⟩
  execute := fun _ inst _ regs _ =>
    some ⟨(Insns.RV32I.addi rv64i regs inst).finish fun _ => 0, (), false, 0, false⟩
  readVal := fun _ _ _ => none
  otherEcall := fun _ _ _ _ _ => none
  ctrl := fun _ => none

variable {σ : Type}

def addiProc : RevProc Unit := freshProc { (default : RevRegFile) with rv64PC := 0x1000 } ()

def ticked (machine : Machine Unit Unit) : Nat → RevProc Unit
  | 0 => addiProc
  | count + 1 =>
    match (ticked machine count).clockTick machine ⟨true, ()⟩ with
    | .ok (_, proc) => proc
    | .error _ => addiProc

def addiFetched (cost : BitVec 32) : Fetched :=
  ⟨{ (default : RevInst) with instSize := 4 }, addiEntry, cost⟩

def addiInst (cost : BitVec 32) : RevInst :=
  { (default : RevInst) with instSize := 4, entry := addiEntry, cost := cost, hazard := some false }

theorem outside_self (proc : RevProc σ) : Outside proc proc where
  others := fun _ _ => rfl
  active := by
    cases found : proc.threadTable proc.activePID with
    | none => exact ⟨default, rfl⟩
    | some ctx => exact ⟨ctx.file.regs, rfl⟩
  activePID := rfl
  hartToExec := rfl
  inst := rfl
  execPC := rfl
  pipeline := rfl
  pendingCtxSwitch := rfl
  nextPID := rfl
  swapToParent := rfl
  pidCount := Nat.le_refl _
  ecallBytesRead := rfl
  log := rfl

-- Every row has the cost 1, so addi retires in the tick that executes it.
theorem cost_honoured_iff_default :
    Honoured (addiInst 1) (ticked (addiMachine (seedInstTable rv64i).instTable)) 1 ↔
      (1 : BitVec 32) = 1 := by
  have executes : Executes (addiMachine (seedInstTable rv64i).instTable) ⟨true, ()⟩ addiProc
      (addiFetched 1) (addiInst 1) :=
    ⟨rfl, ⟨addiProc, _, rfl, rfl, rfl, rfl, rfl, by rfl⟩, ⟨_, by rfl, rfl⟩, rfl⟩
  have clocked : Clocked (addiMachine (seedInstTable rv64i).instTable) (fun _ => ⟨true, ()⟩)
      (ticked (addiMachine (seedInstTable rv64i).instTable)) (addiFetched 1).cost.toNat := by
    intro index less
    obtain rfl : index = 0 := Nat.lt_one_iff.mp less
    exact ⟨_, _, rfl, outside_self _⟩
  have positive : 1 ≤ (addiFetched 1).cost.toNat := Nat.le_refl 1
  exact cost_honoured_iff positive executes clocked

/-- With the override `addi 2` the first addi is never retired. -/
theorem cost_two_hangs : ∃ table, overridden rv64i [(addi, 2)] = some table ∧
    Executes (addiMachine table) ⟨true, ()⟩ addiProc (addiFetched 2) (addiInst 2) ∧
    Clocked (addiMachine table) (fun _ => ⟨true, ()⟩) (ticked (addiMachine table)) 2 ∧
    ¬ Honoured (addiInst 2) (ticked (addiMachine table)) 2 := by
  refine ⟨_, rfl, ⟨rfl, ⟨addiProc, _, rfl, rfl, rfl, rfl, rfl, by rfl⟩, ⟨_, by rfl, rfl⟩, rfl⟩, ?_, ?_⟩
  · intro index less
    rcases index with _ | _ | index
    · exact ⟨_, _, rfl, outside_self _⟩
    · exact ⟨_, _, rfl, outside_self _⟩
    · exact absurd less (by omega)
  · intro honoured
    have front := (honoured.1 2 (by decide) (Nat.le_refl 2)).mp ⟨some false, [], rfl⟩
    exact absurd front (Nat.lt_irrefl 2)

end Programs
end RevCPU.Cost
