import RevCPU.Insns.RV32I
import RevCPU.ProcRun
/-!
The thread table. The live threads of a core are the active one and its ancestors, each with the
registers it was left with, and a child that clone has made but not yet switched to. What a tick does
to the threads is a switch at its head, one system call at most, and at its end the completion of the
active child; everything else changes the registers of the active thread. SwapToParent is never
cleared, so after the first child has returned a clone removes the thread that made it.
-/
namespace RevCPU.Threads
open Feature InstTable RegFile Pan Proc

variable {σ ι : Type}

section Log
variable (log : List Notice)

def created : List (BitVec 32 × BitVec 32) :=
  log.filterMap fun notice => match notice with
    | .created child parent => some (child, parent)
    | _ => none

def finished : List (BitVec 32) :=
  log.filterMap fun notice => match notice with
    | .exited pid => some pid
    | .completed pid => some pid
    | _ => none

/-- The registers a thread was left with at the last switch away from it. -/
def leftWith (pid : BitVec 32) : Option RevRegFile :=
  ((log.filterMap fun notice => match notice with
    | .switched old _ left => if old = pid then some left else none
    | _ => none).getLast?).join

@[simp] theorem created_append (more : List Notice) :
    created (log ++ more) = created log ++ created more := List.filterMap_append

@[simp] theorem finished_append (more : List Notice) :
    finished (log ++ more) = finished log ++ finished more := List.filterMap_append

theorem leftWith_switched (pid old new : BitVec 32) (left : Option RevRegFile) :
    leftWith (log ++ [.switched old new left]) pid = if old = pid then left else leftWith log pid := by
  unfold leftWith
  rw [List.filterMap_append]
  by_cases same : old = pid
  · simp [same]
  · simp [same]

theorem leftWith_created (pid child parent : BitVec 32) :
    leftWith (log ++ [.created child parent]) pid = leftWith log pid := by
  simp [leftWith]

theorem leftWith_exited (pid other : BitVec 32) :
    leftWith (log ++ [.exited other]) pid = leftWith log pid := by
  simp [leftWith]

theorem leftWith_completed (pid other : BitVec 32) :
    leftWith (log ++ [.completed other]) pid = leftWith log pid := by
  simp [leftWith]

end Log

/-- A change of the active thread's registers and of nothing else in the table. Other cores may take
PIDs. -/
structure Quiet (before after : RevProc σ) : Prop where
  others : ∀ pid, pid ≠ before.activePID → after.threadTable pid = before.threadTable pid
  active : ∀ ctx, before.threadTable before.activePID = some ctx →
    ∃ file, after.threadTable before.activePID = some { ctx with file := file }
  activePID : after.activePID = before.activePID
  pendingCtxSwitch : after.pendingCtxSwitch = before.pendingCtxSwitch
  nextPID : after.nextPID = before.nextPID
  swapToParent : after.swapToParent = before.swapToParent
  pidCount : before.pidCount.toNat ≤ after.pidCount.toNat
  log : after.log = before.log

section Frame
variable {machine : Machine σ ι} {tick : Tick ι} {proc middle after : RevProc σ}

theorem Quiet.refl (proc : RevProc σ) : Quiet proc proc where
  others := fun _ _ => rfl
  active := fun ctx found => ⟨ctx.file, found⟩
  activePID := rfl
  pendingCtxSwitch := rfl
  nextPID := rfl
  swapToParent := rfl
  pidCount := Nat.le_refl _
  log := rfl

theorem Quiet.trans (first : Quiet proc middle) (second : Quiet middle after) : Quiet proc after where
  others := by
    intro pid other
    rw [second.others pid (first.activePID ▸ other), first.others pid other]
  active := by
    intro ctx found
    obtain ⟨file, changed⟩ := first.active ctx found
    rw [← first.activePID] at changed ⊢
    obtain ⟨last, again⟩ := second.active _ changed
    exact ⟨last, again⟩
  activePID := second.activePID.trans first.activePID
  pendingCtxSwitch := second.pendingCtxSwitch.trans first.pendingCtxSwitch
  nextPID := second.nextPID.trans first.nextPID
  swapToParent := second.swapToParent.trans first.swapToParent
  pidCount := Nat.le_trans first.pidCount second.pidCount
  log := second.log.trans first.log

theorem quiet_setFile (file : CtxFile) (table : after.threadTable = (proc.setFile file).threadTable)
    (activePID : after.activePID = proc.activePID)
    (pendingCtxSwitch : after.pendingCtxSwitch = proc.pendingCtxSwitch)
    (nextPID : after.nextPID = proc.nextPID) (swapToParent : after.swapToParent = proc.swapToParent)
    (pidCount : after.pidCount = proc.pidCount) (log : after.log = proc.log) : Quiet proc after where
  others := by
    intro pid other
    rw [table, setFile_other proc file other]
  active := by
    intro ctx found
    rw [table]
    exact ⟨file, setFile_found found file⟩
  activePID := activePID
  pendingCtxSwitch := pendingCtxSwitch
  nextPID := nextPID
  swapToParent := swapToParent
  pidCount := Nat.le_of_eq (congrArg BitVec.toNat pidCount.symm)
  log := log

theorem quiet_same (table : after.threadTable = proc.threadTable)
    (activePID : after.activePID = proc.activePID)
    (pendingCtxSwitch : after.pendingCtxSwitch = proc.pendingCtxSwitch)
    (nextPID : after.nextPID = proc.nextPID) (swapToParent : after.swapToParent = proc.swapToParent)
    (pidCount : after.pidCount = proc.pidCount) (log : after.log = proc.log) : Quiet proc after where
  others := fun pid _ => congrFun table pid
  active := fun ctx found => ⟨ctx.file, table ▸ found⟩
  activePID := activePID
  pendingCtxSwitch := pendingCtxSwitch
  nextPID := nextPID
  swapToParent := swapToParent
  pidCount := Nat.le_of_eq (congrArg BitVec.toNat pidCount.symm)
  log := log

theorem Outside.quiet (changed : Outside proc after) : Quiet proc after where
  others := changed.others
  active := by
    intro ctx found
    obtain ⟨regs, same⟩ := changed.active
    rw [same, found]
    exact ⟨_, rfl⟩
  activePID := changed.activePID
  pendingCtxSwitch := changed.pendingCtxSwitch
  nextPID := changed.nextPID
  swapToParent := changed.swapToParent
  pidCount := changed.pidCount
  log := changed.log

theorem fetch_quiet (fetched : proc.fetch machine tick = .ok after) : Quiet proc after := by
  unfold RevProc.fetch at fetched
  split at fetched
  · cases fetched
  · split at fetched
    · split at fetched
      · cases fetched
      · cases fetched
        exact quiet_setFile _ rfl rfl rfl rfl rfl rfl rfl
    · cases fetched
      exact .refl proc

theorem retire_quiet (retired : proc.retire machine = .ok after) : Quiet proc after := by
  unfold RevProc.retire at retired
  split at retired
  · cases retired
    exact .refl _
  · split at retired
    · simp only at retired
      split at retired
      · split at retired
        · cases retired
        · cases retired
          exact quiet_setFile _ rfl rfl rfl rfl rfl rfl rfl
      · cases retired
        exact quiet_same rfl rfl rfl rfl rfl rfl rfl
    · cases retired
      exact .refl _

end Frame

/-- What the system call of a tick does to the threads. -/
inductive Effect (proc : RevProc σ) : RevProc σ → Prop
  | none (memory : σ) (bytes : Nat) :
    Effect proc { proc with memory := memory, ecallBytesRead := bytes }
  | clone (memory : σ) (ctx : RevThreadCtx)
    (born : proc.threadTable (proc.pidCount + 1) = none →
      ctx.parentPID = proc.activePID ∧ ctx.state = .Waiting) :
    Effect proc
      { proc with
          memory := memory
          ecallBytesRead := 0
          threadTable := Function.update proc.threadTable (proc.pidCount + 1) (some ctx)
          pidCount := proc.pidCount + 1
          nextPID := proc.pidCount + 1
          pendingCtxSwitch := true
          log := proc.log ++ [.created (proc.pidCount + 1) proc.activePID] }
  | exit (memory : σ) (ctx : RevThreadCtx) (found : proc.threadTable proc.activePID = some ctx)
    (child : ctx.parentPID ≠ 0) :
    Effect proc
      { proc with
          memory := memory
          nextPID := ctx.parentPID
          pendingCtxSwitch := true
          log := proc.log ++ [.exited proc.activePID] }

section Effects
variable {machine : Machine σ ι} {tick : Tick ι} {proc after : RevProc σ}
variable {file : CtxFile} {inst : RevInst} {served : RevProc.Served σ}

theorem ecallClone_effect (cloned : proc.ecallClone machine file inst = .ok served) :
    Effect proc served.proc := by
  unfold RevProc.ecallClone at cloned
  simp only at cloned
  split at cloned
  · split at cloned
    · cases cloned
    · cases cloned
      exact .none _ _
  · split at cloned
    · cases cloned
    · rename_i child found
      cases cloned
      simp only [RevProc.createChildCtx, RevProc.getNewThreadPID, RevProc.ctxSwitchAlert,
        RevProc.setCtx] at found ⊢
      cases known : proc.threadTable (proc.pidCount + 1) with
      | none =>
        simp only [known, Function.update_self, Option.some.injEq, Function.update_idem] at found ⊢
        subst found
        exact .clone _ _ fun _ => ⟨rfl, rfl⟩
      | some old =>
        simp only [known] at found ⊢
        refine .clone _ _ ?_
        intro fresh
        rw [known] at fresh
        cases fresh

theorem ecallExit_effect (exited : proc.ecallExit file inst = .ok served) :
    Effect proc served.proc := by
  unfold RevProc.ecallExit at exited
  split at exited
  · cases exited
  · rename_i ctx found
    split at exited
    · cases exited
    · rename_i child
      cases exited
      exact .exit _ ctx found child

theorem execEcall_effect (called : proc.execEcall machine file inst = .ok served) :
    Effect proc served.proc := by
  have inner : ∀ code one, proc.ecall machine file inst code = .ok one → Effect proc one.proc := by
    intro code one called
    unfold RevProc.ecall at called
    split at called
    · exact ecallClone_effect called
    · split at called
      · exact ecallExit_effect called
      · split at called
        · cases called
        · cases called
          exact .none _ _
  unfold RevProc.execEcall at called
  simp only at called
  split at called
  · cases called
  · rename_i one serves
    have effect := inner _ one serves
    split at called
    · cases called
      exact effect
    · cases called
      exact effect

theorem Effect.after_memory {memory : σ} (effect : Effect { proc with memory := memory } after) :
    Effect proc after := by
  cases effect with
  | none memory bytes => exact .none memory bytes
  | clone memory ctx born => exact .clone memory ctx born
  | exit memory ctx found child => exact .exit memory ctx found child

/-- An instruction changes the threads as its system call does, if it is one, and then the registers
of the active thread. -/
theorem issue_effect (issued : proc.issue machine tick file = .ok after) :
    ∃ middle, Effect proc middle ∧ Quiet middle after := by
  unfold RevProc.issue at issued
  simp only at issued
  split at issued
  · cases issued
  · split at issued
    · cases issued
    · rename_i outcome executed
      split at issued
      · split at issued
        · cases issued
        · rename_i served called
          cases issued
          exact ⟨served.proc, (execEcall_effect called).after_memory,
            quiet_setFile _ rfl rfl rfl rfl rfl rfl rfl⟩
      · cases issued
        exact ⟨_, .none outcome.memory proc.ecallBytesRead, quiet_setFile _ rfl rfl rfl rfl rfl rfl rfl⟩

-- Nothing executes where the instruction was triggered before.
theorem trigger_cases (triggered : proc.trigger machine tick = .ok after) :
    Quiet proc after ∨
      (∃ ctx, proc.threadTable proc.activePID = some ctx ∧ ctx.file.trigger = false) ∧
        ∃ middle, Effect proc middle ∧ Quiet middle after := by
  unfold RevProc.trigger at triggered
  split at triggered
  · cases triggered
  · rename_i file opened
    obtain ⟨ctx, found, rfl⟩ := file_ok opened
    split at triggered
    · rename_i ready
      have stepped : ∀ next : RevProc σ,
          (if next.singleStep then .ok { next with singleStep := false, halted := true }
            else .ok next : Except Fault (RevProc σ)) = .ok after → Quiet next after := by
        intro next ended
        split at ended
        · cases ended
          exact quiet_same rfl rfl rfl rfl rfl rfl rfl
        · cases ended
          exact .refl _
      simp only at triggered
      split at triggered
      · cases triggered
      · rename_i next issued
        have last := stepped next triggered
        split at issued
        · cases issued
          have stored : Quiet proc (proc.setFile { ctx.file with trigger := true }) :=
            quiet_setFile _ rfl rfl rfl rfl rfl rfl rfl
          exact .inl (stored.trans last)
        · obtain ⟨middle, effect, quiet⟩ := issue_effect issued
          exact .inr ⟨⟨ctx, found, ready.2.1⟩, middle, effect, quiet.trans last⟩
    · cases triggered
      exact .inl (.refl proc)

end Effects

section Lines
variable {table other : BitVec 32 → Option RevThreadCtx} {pid : BitVec 32}
variable {ancestors : List (BitVec 32)}

/-- A thread and its ancestors, each with a smaller PID than its child. -/
inductive Line (table : BitVec 32 → Option RevThreadCtx) : BitVec 32 → List (BitVec 32) → Prop
  | first {pid : BitVec 32} {ctx : RevThreadCtx} (found : table pid = some ctx)
    (orphan : ctx.parentPID = 0) : Line table pid []
  | child {pid : BitVec 32} {ctx : RevThreadCtx} {rest : List (BitVec 32)}
    (found : table pid = some ctx) (parent : ctx.parentPID ≠ 0)
    (older : ctx.parentPID.toNat < pid.toNat) (line : Line table ctx.parentPID rest) :
    Line table pid (ctx.parentPID :: rest)

theorem Line.older (line : Line table pid ancestors) :
    ∀ old ∈ ancestors, old.toNat < pid.toNat := by
  induction line with
  | first => simp
  | child found parent older line ih =>
    intro old member
    rcases List.mem_cons.mp member with rfl | above
    · exact older
    · exact Nat.lt_trans (ih old above) older

theorem Line.present (line : Line table pid ancestors) :
    ∀ old ∈ pid :: ancestors, ∃ ctx, table old = some ctx := by
  induction line with
  | first found orphan =>
    intro old member
    rw [List.mem_singleton.mp member]
    exact ⟨_, found⟩
  | child found parent older line ih =>
    intro old member
    rcases List.mem_cons.mp member with rfl | above
    · exact ⟨_, found⟩
    · exact ih old above

theorem Line.parent (line : Line table pid ancestors) :
    ∀ old ∈ pid :: ancestors, ∀ ctx, table old = some ctx → ctx.parentPID ≠ 0 →
      ∃ ctx', table ctx.parentPID = some ctx' := by
  induction line with
  | first found orphan =>
    intro old member ctx located some
    rw [List.mem_singleton.mp member, found] at located
    cases located
    exact absurd orphan some
  | child found parent older line ih =>
    intro old member ctx located some
    rcases List.mem_cons.mp member with rfl | above
    · rw [found] at located
      cases located
      exact line.present _ List.mem_cons_self
    · exact ih old above ctx located some

-- The parents make the line.
theorem Line.congr (line : Line table pid ancestors)
    (same : ∀ old ∈ pid :: ancestors, ∀ ctx, table old = some ctx →
      ∃ ctx', other old = some ctx' ∧ ctx'.parentPID = ctx.parentPID) : Line other pid ancestors := by
  induction line with
  | first found orphan =>
    obtain ⟨ctx', found', parent⟩ := same _ (by simp) _ found
    exact .first found' (parent.trans orphan)
  | child found parent older line ih =>
    obtain ⟨ctx', found', named⟩ := same _ (by simp) _ found
    have rest := ih fun old member => same old (List.mem_cons_of_mem _ member)
    rw [← named] at parent older rest ⊢
    exact .child found' parent older rest

end Lines

def Going (proc : RevProc σ) : Prop :=
  proc.activePID ∉ finished proc.log ∧
    ∀ ctx, proc.threadTable proc.activePID = some ctx → ctx.state ≠ .Dead

/-- The switch that is pending is to a new child. -/
def Forked (proc : RevProc σ) : Prop :=
  Going proc ∧ proc.nextPID ∉ finished proc.log ∧ proc.activePID.toNat < proc.nextPID.toNat ∧
    ∃ ctx, proc.threadTable proc.nextPID = some ctx ∧ ctx.parentPID = proc.activePID ∧
      ctx.state ≠ .Dead

/-- The switch that is pending is from a finished child to its parent. -/
def Returning (proc : RevProc σ) : Prop :=
  proc.activePID ∈ finished proc.log ∧ proc.nextPID ≠ 0 ∧
    ∃ ctx, proc.threadTable proc.activePID = some ctx ∧ ctx.parentPID = proc.nextPID

structure Sane (proc : RevProc σ) (ancestors : List (BitVec 32)) : Prop where
  line : Line proc.threadTable proc.activePID ancestors
  kept : ∀ pid ∈ ancestors, pid ∉ finished proc.log ∧ ∃ ctx, proc.threadTable pid = some ctx ∧
    ctx.state ≠ .Dead ∧ leftWith proc.log pid = some ctx.file.regs
  once : ((created proc.log).map Prod.fst).Nodup
  numbered : ∀ pair ∈ created proc.log, pair.1 ≠ 0 ∧ pair.1.toNat ≤ proc.pidCount.toNat
  recorded : ∀ pid ctx, proc.threadTable pid = some ctx → (pid, ctx.parentPID) ∈ created proc.log
  live : ∀ pair ∈ created proc.log, pair.1 ∉ finished proc.log →
    pair.1 ∈ proc.activePID :: ancestors ∨ proc.pendingCtxSwitch = true ∧ pair.1 = proc.nextPID
  known : ∀ pid ∈ finished proc.log, ∃ parent, (pid, parent) ∈ created proc.log
  calm : proc.pendingCtxSwitch = false → Going proc
  alerted : proc.pendingCtxSwitch = true → Forked proc ∨ Returning proc

section Steps
variable {machine : Machine σ ι} {tick : Tick ι} {proc after : RevProc σ}
variable {ancestors : List (BitVec 32)}

theorem Quiet.forward (quiet : Quiet proc after) {pid : BitVec 32} {ctx : RevThreadCtx}
    (found : proc.threadTable pid = some ctx) :
    ∃ file, after.threadTable pid = some { ctx with file := file } := by
  by_cases same : pid = proc.activePID
  · subst same
    exact quiet.active ctx found
  · exact ⟨ctx.file, (quiet.others pid same).trans found⟩

theorem Quiet.backward (quiet : Quiet proc after) {pid : BitVec 32} {ctx : RevThreadCtx}
    (active : ∃ old, proc.threadTable proc.activePID = some old)
    (found : after.threadTable pid = some ctx) :
    ∃ old, proc.threadTable pid = some old ∧ ctx.parentPID = old.parentPID ∧
      ctx.state = old.state := by
  by_cases same : pid = proc.activePID
  · subst same
    obtain ⟨old, known⟩ := active
    obtain ⟨file, changed⟩ := quiet.active old known
    rw [changed] at found
    cases found
    exact ⟨old, known, rfl, rfl⟩
  · rw [quiet.others pid same] at found
    exact ⟨ctx, found, rfl, rfl⟩

theorem Sane.active (sane : Sane proc ancestors) :
    ∃ ctx, proc.threadTable proc.activePID = some ctx :=
  sane.line.present _ (by simp)

theorem Sane.quiet (sane : Sane proc ancestors) (quiet : Quiet proc after) :
    Sane after ancestors := by
  have going : Going proc → Going after := by
    rintro ⟨unfinished, alive⟩
    rw [Going, quiet.log, quiet.activePID]
    refine ⟨unfinished, ?_⟩
    intro ctx found
    obtain ⟨old, known, -, state⟩ := quiet.backward sane.active found
    rw [state]
    exact alive old known
  constructor
  · rw [quiet.activePID]
    apply sane.line.congr
    intro old member ctx found
    obtain ⟨file, changed⟩ := quiet.forward found
    exact ⟨_, changed, rfl⟩
  · intro pid member
    obtain ⟨unfinished, ctx, found, alive, left⟩ := sane.kept pid member
    have other : pid ≠ proc.activePID := by
      rintro rfl
      exact Nat.lt_irrefl _ (sane.line.older _ member)
    rw [quiet.log, quiet.others pid other]
    exact ⟨unfinished, ctx, found, alive, left⟩
  · rw [quiet.log]
    exact sane.once
  · intro pair member
    rw [quiet.log] at member
    obtain ⟨some, bound⟩ := sane.numbered pair member
    exact ⟨some, Nat.le_trans bound quiet.pidCount⟩
  · intro pid ctx found
    obtain ⟨old, known, parent, -⟩ := quiet.backward sane.active found
    rw [quiet.log, parent]
    exact sane.recorded pid old known
  · intro pair member unfinished
    rw [quiet.log] at member unfinished
    rw [quiet.activePID, quiet.pendingCtxSwitch, quiet.nextPID]
    exact sane.live pair member unfinished
  · rw [quiet.log]
    exact sane.known
  · intro idle
    rw [quiet.pendingCtxSwitch] at idle
    exact going (sane.calm idle)
  · intro pending
    rw [quiet.pendingCtxSwitch] at pending
    rcases sane.alerted pending with ⟨running, unfinished, older, ctx, found, parent, alive⟩ |
      ⟨ended, some, ctx, found, parent⟩
    · obtain ⟨file, changed⟩ := quiet.forward found
      refine .inl ⟨going running, ?_⟩
      rw [quiet.log, quiet.activePID, quiet.nextPID]
      exact ⟨unfinished, older, _, changed, parent, alive⟩
    · obtain ⟨file, changed⟩ := quiet.forward found
      refine .inr ?_
      rw [Returning, quiet.log, quiet.activePID, quiet.nextPID]
      exact ⟨ended, some, _, changed, parent⟩

theorem Sane.initial (initial : Initial proc) : Sane proc [] := by
  obtain ⟨ctx, found, orphan, waiting, -⟩ := initial.first
  have log := initial.log
  have numbered := initial.numbered
  have one : created proc.log = [(proc.activePID, 0)] := by rw [log]; rfl
  have none : finished proc.log = [] := by rw [log]; rfl
  constructor
  · exact .first found orphan
  · intro pid member
    cases member
  · rw [one]
    simp
  · intro pair member
    rw [one] at member
    rw [List.mem_singleton.mp member]
    refine ⟨?_, initial.counted⟩
    intro zero
    rw [show proc.activePID = 0 from zero] at numbered
    exact absurd numbered (by decide)
  · intro pid ctx' found'
    by_cases same : pid = proc.activePID
    · rw [same, found] at found'
      cases found'
      rw [one, same, orphan]
      simp
    · rw [initial.alone pid same] at found'
      cases found'
  · intro pair member _
    rw [one] at member
    rw [List.mem_singleton.mp member]
    simp
  · rw [none]
    intro pid member
    cases member
  · intro _
    rw [Going, none]
    refine ⟨List.not_mem_nil, ?_⟩
    intro ctx' found'
    rw [found] at found'
    cases found'
    rw [waiting]
    decide
  · intro pending
    rw [initial.pendingCtxSwitch] at pending
    cases pending

-- A PID that was never handed out is not in the table.
theorem Sane.fresh (sane : Sane proc ancestors) {pid : BitVec 32}
    (new : proc.pidCount.toNat < pid.toNat) : proc.threadTable pid = none := by
  cases found : proc.threadTable pid with
  | none => rfl
  | some ctx =>
    have bound := (sane.numbered _ (sane.recorded pid ctx found)).2
    exact absurd new (Nat.not_lt.mpr bound)

theorem Sane.older (sane : Sane proc ancestors) {pid : BitVec 32}
    (member : pid ∈ proc.activePID :: ancestors) : pid.toNat ≤ proc.pidCount.toNat := by
  obtain ⟨ctx, found⟩ := sane.line.present pid member
  exact (sane.numbered _ (sane.recorded pid ctx found)).2

theorem Sane.clone (sane : Sane proc ancestors) (idle : proc.pendingCtxSwitch = false)
    (room : proc.pidCount.toNat + 1 < 2 ^ 32) (memory : σ) {ctx : RevThreadCtx}
    (parent : ctx.parentPID = proc.activePID) (waiting : ctx.state = .Waiting) :
    Sane
      { proc with
          memory := memory
          ecallBytesRead := 0
          threadTable := Function.update proc.threadTable (proc.pidCount + 1) (some ctx)
          pidCount := proc.pidCount + 1
          nextPID := proc.pidCount + 1
          pendingCtxSwitch := true
          log := proc.log ++ [.created (proc.pidCount + 1) proc.activePID] } ancestors := by
  have next : (proc.pidCount + 1).toNat = proc.pidCount.toNat + 1 := by
    rw [BitVec.toNat_add]
    exact Nat.mod_eq_of_lt room
  have new : ∀ pid : BitVec 32, pid.toNat ≤ proc.pidCount.toNat → pid ≠ proc.pidCount + 1 := by
    rintro pid bound rfl
    omega
  have unfinished : proc.pidCount + 1 ∉ finished proc.log := by
    intro ended
    obtain ⟨old, member⟩ := sane.known _ ended
    exact new _ (sane.numbered _ member).2 rfl
  have log : created (proc.log ++ [.created (proc.pidCount + 1) proc.activePID]) =
      created proc.log ++ [(proc.pidCount + 1, proc.activePID)] := created_append _ _
  have same : finished (proc.log ++ [.created (proc.pidCount + 1) proc.activePID]) =
      finished proc.log := by
    rw [finished_append]
    exact List.append_nil _
  have keeps : ∀ pid : BitVec 32, pid.toNat ≤ proc.pidCount.toNat →
      Function.update proc.threadTable (proc.pidCount + 1) (some ctx) pid = proc.threadTable pid :=
    fun pid bound => Function.update_of_ne (new pid bound) _ _
  obtain ⟨going, alive⟩ := sane.calm idle
  have activeOld := sane.older (List.mem_cons_self)
  constructor
  · apply sane.line.congr
    intro old member ctx' found
    exact ⟨ctx', (keeps old (sane.older member)).trans found, rfl⟩
  · intro pid member
    obtain ⟨open', ctx', found, alive', left⟩ := sane.kept pid member
    have bound := sane.older (List.mem_cons_of_mem _ member)
    simp only
    rw [same, leftWith_created, keeps pid bound]
    exact ⟨open', ctx', found, alive', left⟩
  · simp only
    rw [log, List.map_append, List.nodup_append]
    refine ⟨sane.once, by simp, ?_⟩
    intro pid member other last
    rw [List.mem_singleton.mp last]
    obtain ⟨pair, inside, rfl⟩ := List.mem_map.mp member
    exact new _ (sane.numbered pair inside).2
  · intro pair member
    simp only at member ⊢
    rw [log] at member
    rcases List.mem_append.mp member with old | last
    · obtain ⟨some, bound⟩ := sane.numbered pair old
      exact ⟨some, by omega⟩
    · rw [List.mem_singleton.mp last]
      refine ⟨?_, Nat.le_refl _⟩
      intro zero
      rw [show proc.pidCount + 1 = 0 from zero] at next
      exact absurd next (by simp)
  · intro pid ctx' found
    simp only at found ⊢
    rw [log]
    by_cases isNew : pid = proc.pidCount + 1
    · rw [isNew, Function.update_self] at found
      cases found
      rw [isNew, parent]
      simp
    · rw [Function.update_of_ne isNew] at found
      exact List.mem_append_left _ (sane.recorded pid ctx' found)
  · intro pair member open'
    simp only at member open' ⊢
    rw [log] at member
    rw [same] at open'
    rcases List.mem_append.mp member with old | last
    · rcases sane.live pair old open' with inLine | ⟨pending, -⟩
      · exact .inl inLine
      · rw [idle] at pending
        cases pending
    · rw [List.mem_singleton.mp last]
      exact .inr ⟨trivial, rfl⟩
  · intro pid ended
    simp only at ended ⊢
    rw [same] at ended
    obtain ⟨old, member⟩ := sane.known pid ended
    rw [log]
    exact ⟨old, List.mem_append_left _ member⟩
  · intro none
    cases none
  · intro _
    refine .inl ⟨⟨?_, ?_⟩, ?_, ?_, ctx, ?_, parent, ?_⟩
    · simp only
      rw [same]
      exact going
    · intro ctx' found
      exact alive ctx' ((keeps _ activeOld).symm.trans found)
    · simp only
      rw [same]
      exact unfinished
    · simp only
      omega
    · exact Function.update_self ..
    · rw [waiting]
      decide

-- The parent of a finished child is the first of its ancestors.
theorem Sane.above (sane : Sane proc ancestors) (returning : Returning proc) :
    ∃ rest, ancestors = proc.nextPID :: rest ∧ Line proc.threadTable proc.nextPID rest := by
  obtain ⟨-, some, ctx, found, parent⟩ := returning
  have line := sane.line
  cases line with
  | first found' orphan =>
    rw [found] at found'
    cases found'
    exact absurd (parent.symm.trans orphan) some
  | child found' named older rest =>
    rw [found] at found'
    cases found'
    rw [parent] at rest ⊢
    exact ⟨_, rfl, rest⟩

-- Apart from a new child that is waited for, the live threads are the active one and its ancestors.
theorem Sane.inLine (sane : Sane proc ancestors)
    (settled : proc.pendingCtxSwitch = true → ¬ Forked proc) :
    ∀ pair ∈ created proc.log, pair.1 ∉ finished proc.log → pair.1 ∈ proc.activePID :: ancestors := by
  intro pair member unfinished
  rcases sane.live pair member unfinished with inside | ⟨pending, next⟩
  · exact inside
  · rcases sane.alerted pending with forked | returning
    · exact absurd forked (settled pending)
    · obtain ⟨rest, line, -⟩ := sane.above returning
      rw [next, line]
      simp

theorem Sane.finish (sane : Sane proc ancestors)
    (settled : proc.pendingCtxSwitch = true → ¬ Forked proc) {ctx ctx' : RevThreadCtx}
    (found : proc.threadTable proc.activePID = some ctx) (child : ctx.parentPID ≠ 0)
    (others : ∀ pid, pid ≠ proc.activePID → after.threadTable pid = proc.threadTable pid)
    (changed : after.threadTable proc.activePID = some ctx') (parent : ctx'.parentPID = ctx.parentPID)
    (activePID : after.activePID = proc.activePID) (pidCount : after.pidCount = proc.pidCount)
    (pending : after.pendingCtxSwitch = true) (nextPID : after.nextPID = ctx.parentPID)
    (made : created after.log = created proc.log)
    (ended : finished after.log = finished proc.log ++ [proc.activePID])
    (left : ∀ pid, leftWith after.log pid = leftWith proc.log pid) : Sane after ancestors := by
  have apart : ∀ pid ∈ ancestors, pid ≠ proc.activePID := by
    rintro pid member rfl
    exact Nat.lt_irrefl _ (sane.line.older _ member)
  constructor
  · rw [activePID]
    apply sane.line.congr
    intro old member ctx₀ found₀
    by_cases same : old = proc.activePID
    · rw [same, found] at found₀
      cases found₀
      rw [same]
      exact ⟨ctx', changed, parent⟩
    · exact ⟨ctx₀, (others old same).trans found₀, rfl⟩
  · intro pid member
    obtain ⟨unfinished, ctx₀, found₀, alive, saved⟩ := sane.kept pid member
    rw [ended, others pid (apart pid member), left]
    refine ⟨?_, ctx₀, found₀, alive, saved⟩
    intro inside
    rcases List.mem_append.mp inside with old | last
    · exact unfinished old
    · exact apart pid member (List.mem_singleton.mp last)
  · rw [made]
    exact sane.once
  · rw [made, pidCount]
    exact sane.numbered
  · intro pid ctx₀ found₀
    rw [made]
    by_cases same : pid = proc.activePID
    · rw [same, changed] at found₀
      cases found₀
      rw [same, parent]
      exact sane.recorded _ ctx found
    · rw [others pid same] at found₀
      exact sane.recorded pid ctx₀ found₀
  · intro pair member unfinished
    rw [made] at member
    rw [ended] at unfinished
    rw [activePID]
    exact .inl (sane.inLine settled pair member fun old => unfinished (List.mem_append_left _ old))
  · intro pid inside
    rw [made]
    rw [ended] at inside
    rcases List.mem_append.mp inside with old | last
    · exact sane.known pid old
    · rw [List.mem_singleton.mp last]
      exact ⟨_, sane.recorded _ ctx found⟩
  · intro idle
    rw [pending] at idle
    cases idle
  · intro _
    refine .inr ?_
    rw [Returning, activePID, nextPID, ended]
    exact ⟨by simp, child, ctx', changed, parent⟩

theorem Sane.effect (sane : Sane proc ancestors) (idle : proc.pendingCtxSwitch = false)
    (room : proc.pidCount.toNat + 1 < 2 ^ 32) (effect : Effect proc after) :
    Sane after ancestors := by
  have settled : proc.pendingCtxSwitch = true → ¬ Forked proc := by
    intro pending
    rw [idle] at pending
    cases pending
  cases effect with
  | none memory bytes => exact sane.quiet (quiet_same rfl rfl rfl rfl rfl rfl rfl)
  | clone memory ctx born =>
    have next : (proc.pidCount + 1).toNat = proc.pidCount.toNat + 1 := by
      rw [BitVec.toNat_add]
      exact Nat.mod_eq_of_lt room
    obtain ⟨parent, waiting⟩ := born (sane.fresh (by omega))
    exact sane.clone idle room memory parent waiting
  | exit memory ctx found child =>
    refine sane.finish settled found child (fun _ _ => rfl) found rfl rfl rfl rfl rfl ?_ ?_ ?_
    · exact (created_append _ _).trans (List.append_nil _)
    · exact finished_append _ _
    · intro pid
      exact leftWith_exited _ _ _

theorem Sane.complete (sane : Sane proc ancestors)
    (settled : proc.pendingCtxSwitch = true → proc.hartToExec = true → Forked proc →
      ∀ ctx, proc.threadTable proc.activePID = some ctx → AtEnd machine ctx → ctx.parentPID = 0)
    {flag : Bool} (completed : proc.complete machine = .ok (flag, after)) : Sane after ancestors := by
  obtain ⟨ctx, found, ⟨-, -, rfl⟩ | ⟨ends, regs, exec, work, rest⟩⟩ := complete_cases completed
  · exact sane
  · have searched : Quiet proc (proc.findWork machine ctx.file).2 := by
      rw [work]
      exact quiet_setFile _ rfl rfl rfl rfl rfl rfl rfl
    have next := sane.quiet searched
    rcases rest with ⟨valid, child, -, rfl⟩ | ⟨-, -, -, rfl⟩ | ⟨-, rfl, -⟩
    · have located : (proc.findWork machine ctx.file).2.threadTable
          (proc.findWork machine ctx.file).2.activePID =
            some { ctx with file := { ctx.file with regs := regs } } := by
        rw [work]
        exact setFile_found found _
      have alone : (proc.findWork machine ctx.file).2.pendingCtxSwitch = true →
          ¬ Forked (proc.findWork machine ctx.file).2 := by
        intro pending forked
        rw [searched.pendingCtxSwitch] at pending
        rcases sane.alerted pending with before | ⟨ended, -⟩
        · exact child (settled pending valid before ctx found ends)
        · rw [← searched.log, ← searched.activePID] at ended
          exact forked.1.1 ended
      have dead : (endChild (proc.findWork machine ctx.file).2
          { ctx with file := { ctx.file with regs := regs } }).threadTable
            (proc.findWork machine ctx.file).2.activePID =
          some { ctx with file := { ctx.file with regs := regs }, state := .Dead } :=
        Function.update_self ..
      refine next.finish alone located child ?_ dead rfl rfl rfl rfl rfl ?_ ?_ ?_
      · intro pid other
        exact Function.update_of_ne other _ _
      · exact (created_append _ _).trans (List.append_nil _)
      · exact finished_append _ _
      · intro pid
        exact leftWith_completed _ _ _
    · exact next
    · exact next

/-- The table that a switch leaves to the new thread. -/
def swapTable (proc : RevProc σ) : BitVec 32 → Option RevThreadCtx :=
  if proc.swapToParent then Function.update proc.threadTable proc.activePID none
  else proc.threadTable

/-- The core after a switch to the pending thread. -/
def switchedTo (feature : RevFeature) (proc : RevProc σ) (ctx : RevThreadCtx) : RevProc σ :=
  { proc with
      threadTable := Function.update (swapTable proc) proc.nextPID
        (some { ctx with file := { ctx.file with trigger := false, cost := 0 } })
      activePID := proc.nextPID
      execPC := getPC feature ctx.file.regs
      pendingCtxSwitch := false
      nextPID := 0
      log := proc.log ++ [.switched proc.activePID proc.nextPID
        ((proc.threadTable proc.activePID).map fun ctx => ctx.file.regs)] }

variable {feature : RevFeature}

theorem switchCtx_eq {ctx old : RevThreadCtx} (pending : proc.pendingCtxSwitch = true)
    (empty : proc.pipeline = []) (valid : proc.hartToExec = true)
    (known : proc.threadTable proc.nextPID = some old)
    (found : swapTable proc proc.nextPID = some ctx) :
    proc.switchCtx feature = .ok (switchedTo feature proc ctx) := by
  unfold swapTable at found
  simp only [RevProc.switchCtx, pending, empty, and_self, if_true, RevProc.changeActivePID, known,
    valid, found, RevProc.file, RevProc.setFile, Option.map_some, switchedTo, swapTable]

theorem switchCtx_cases (switched : proc.switchCtx feature = .ok after) :
    ¬ (proc.pendingCtxSwitch = true ∧ proc.pipeline = []) ∧ after = proc ∨
    (proc.pendingCtxSwitch = true ∧ proc.pipeline = []) ∧ proc.hartToExec = true ∧
      ∃ ctx, swapTable proc proc.nextPID = some ctx ∧ after = switchedTo feature proc ctx := by
  by_cases due : proc.pendingCtxSwitch = true ∧ proc.pipeline = []
  · refine .inr ⟨due, ?_⟩
    obtain ⟨pending, empty⟩ := due
    have known : ∃ old, proc.threadTable proc.nextPID = some old := by
      cases missing : proc.threadTable proc.nextPID with
      | some old => exact ⟨old, rfl⟩
      | none =>
        simp only [RevProc.switchCtx, pending, empty, and_self, if_true, RevProc.changeActivePID,
          missing] at switched
        cases switched
    obtain ⟨old, known⟩ := known
    have valid : proc.hartToExec = true := by
      cases hart : proc.hartToExec with
      | true => rfl
      | false =>
        simp only [RevProc.switchCtx, pending, empty, and_self, if_true, RevProc.changeActivePID,
          known, hart] at switched
        cases switched
    have found : ∃ ctx, swapTable proc proc.nextPID = some ctx := by
      cases missing : swapTable proc proc.nextPID with
      | some ctx => exact ⟨ctx, rfl⟩
      | none =>
        unfold swapTable at missing
        simp only [RevProc.switchCtx, pending, empty, and_self, if_true, RevProc.changeActivePID,
          known, valid, missing] at switched
        cases switched
    obtain ⟨ctx, found⟩ := found
    rw [switchCtx_eq pending empty valid known found] at switched
    cases switched
    exact ⟨valid, ctx, found, rfl⟩
  · simp only [RevProc.switchCtx, due, if_false] at switched
    cases switched
    exact .inl ⟨due, rfl⟩

section Switch
variable {ctx : RevThreadCtx}

theorem switchedTo_created : created (switchedTo feature proc ctx).log = created proc.log :=
  (created_append _ _).trans (List.append_nil _)

theorem switchedTo_finished : finished (switchedTo feature proc ctx).log = finished proc.log :=
  (finished_append _ _).trans (List.append_nil _)

theorem switchedTo_other {pid : BitVec 32} (other : pid ≠ proc.nextPID) :
    (switchedTo feature proc ctx).threadTable pid = swapTable proc pid :=
  Function.update_of_ne other _ _

theorem switchedTo_next : (switchedTo feature proc ctx).threadTable proc.nextPID =
    some { ctx with file := { ctx.file with trigger := false, cost := 0 } } :=
  Function.update_self ..

theorem switchedTo_left {pid : BitVec 32} (other : proc.activePID ≠ pid) :
    leftWith (switchedTo feature proc ctx).log pid = leftWith proc.log pid :=
  (leftWith_switched _ _ _ _ _).trans (if_neg other)

-- A switch makes no context.
theorem swapTable_found {pid : BitVec 32} {other : RevThreadCtx}
    (found : swapTable proc pid = some other) : proc.threadTable pid = some other := by
  unfold swapTable at found
  split at found
  · by_cases same : pid = proc.activePID
    · rw [same, Function.update_self] at found
      cases found
    · rwa [Function.update_of_ne same] at found
  · exact found

theorem swapTable_other {pid : BitVec 32} (other : pid ≠ proc.activePID) :
    swapTable proc pid = proc.threadTable pid := by
  unfold swapTable
  split
  · exact Function.update_of_ne other _ _
  · rfl

-- What holds of the log and the table after either switch.
theorem Sane.recorded_switch (sane : Sane proc ancestors)
    (found : swapTable proc proc.nextPID = some ctx) :
    ∀ pid other, (switchedTo feature proc ctx).threadTable pid = some other →
      (pid, other.parentPID) ∈ created (switchedTo feature proc ctx).log := by
  intro pid other located
  rw [switchedTo_created]
  by_cases same : pid = proc.nextPID
  · rw [same, switchedTo_next] at located
    cases located
    rw [same]
    exact sane.recorded _ ctx (swapTable_found found)
  · rw [switchedTo_other same] at located
    exact sane.recorded _ other (swapTable_found located)

theorem Sane.fork (sane : Sane proc ancestors) (forked : Forked proc) (keep : proc.swapToParent = false)
    (found : swapTable proc proc.nextPID = some ctx) :
    Sane (switchedTo feature proc ctx) (proc.activePID :: ancestors) := by
  obtain ⟨⟨going, alive⟩, unfinished, younger, child, located, parent, breathing⟩ := forked
  have same : child = ctx := by
    have again := swapTable_found found
    rw [located] at again
    exact Option.some.inj again
  subst same
  have table : ∀ pid ∈ proc.activePID :: ancestors,
      (switchedTo feature proc child).threadTable pid = proc.threadTable pid := by
    intro pid member
    have older : pid.toNat < proc.nextPID.toNat := by
      rcases List.mem_cons.mp member with rfl | above
      · exact younger
      · exact Nat.lt_trans (sane.line.older pid above) younger
    rw [switchedTo_other (by rintro rfl; exact Nat.lt_irrefl _ older), swapTable, keep]
    rfl
  obtain ⟨active, located'⟩ := sane.active
  have some : proc.activePID ≠ 0 := (sane.numbered _ (sane.recorded _ active located')).1
  constructor
  · have rest : Line (switchedTo feature proc child).threadTable proc.activePID ancestors := by
      apply sane.line.congr
      intro old member ctx found
      exact ⟨ctx, (table old member).trans found, rfl⟩
    rw [← parent] at some younger rest ⊢
    have entered : (switchedTo feature proc child).threadTable proc.nextPID = _ := switchedTo_next
    have line := Line.child entered some younger rest
    exact line
  · intro pid member
    rw [switchedTo_finished, table pid member]
    rcases List.mem_cons.mp member with rfl | above
    · refine ⟨going, active, located', alive active located', ?_⟩
      refine (leftWith_switched _ _ _ _ _).trans ?_
      rw [if_pos rfl, located']
      rfl
    · obtain ⟨open', ctx, found, breathes, left⟩ := sane.kept pid above
      refine ⟨open', ctx, found, breathes, ?_⟩
      rw [switchedTo_left, left]
      rintro rfl
      exact Nat.lt_irrefl _ (sane.line.older _ above)
  · rw [switchedTo_created]
    exact sane.once
  · rw [switchedTo_created]
    exact sane.numbered
  · exact sane.recorded_switch found
  · intro pair member open'
    rw [switchedTo_created] at member
    rw [switchedTo_finished] at open'
    refine .inl ?_
    rcases sane.live pair member open' with inside | ⟨-, next⟩
    · exact List.mem_cons_of_mem _ inside
    · rw [next]
      exact List.mem_cons_self
  · rw [switchedTo_created, switchedTo_finished]
    exact sane.known
  · intro _
    rw [Going, switchedTo_finished]
    refine ⟨unfinished, ?_⟩
    intro ctx found
    rw [show (switchedTo feature proc child).activePID = proc.nextPID from rfl, switchedTo_next] at found
    cases found
    exact breathing
  · intro again
    cases again

theorem Sane.return (sane : Sane proc ancestors) (returning : Returning proc)
    (found : swapTable proc proc.nextPID = some ctx) :
    ∃ rest, Sane (switchedTo feature proc ctx) rest ∧
      leftWith proc.log proc.nextPID = some ctx.file.regs := by
  obtain ⟨rest, rfl, line⟩ := sane.above returning
  have ended := returning.1
  have live := sane.inLine fun _ forked => forked.1.1 ended
  have kept := sane.kept
  have above := sane.line.older
  have apart : ∀ pid ∈ proc.nextPID :: rest, pid ≠ proc.activePID := by
    rintro pid member rfl
    exact Nat.lt_irrefl _ (above _ member)
  have table : ∀ pid ∈ proc.nextPID :: rest, swapTable proc pid = proc.threadTable pid :=
    fun pid member => swapTable_other (apart pid member)
  obtain ⟨open', ctx', found', breathes, left⟩ := kept proc.nextPID List.mem_cons_self
  have same : ctx' = ctx := by
    rw [table _ List.mem_cons_self, found'] at found
    exact Option.some.inj found
  subst same
  refine ⟨rest, ?_, left⟩
  constructor
  · apply line.congr
    intro old member ctx₀ found₀
    rcases List.mem_cons.mp member with rfl | behind
    · rw [found'] at found₀
      cases found₀
      exact ⟨_, switchedTo_next, rfl⟩
    · have other : old ≠ proc.nextPID := by
        rintro rfl
        exact Nat.lt_irrefl _ (line.older _ behind)
      exact ⟨ctx₀, by rw [switchedTo_other other, table old member, found₀], rfl⟩
  · intro pid behind
    have member := List.mem_cons_of_mem proc.nextPID behind
    obtain ⟨unfinished, ctx₀, found₀, alive, saved⟩ := kept pid member
    have other : pid ≠ proc.nextPID := by
      rintro rfl
      exact Nat.lt_irrefl _ (line.older _ behind)
    rw [switchedTo_finished, switchedTo_other other, table pid member,
      switchedTo_left (apart pid member).symm]
    exact ⟨unfinished, ctx₀, found₀, alive, saved⟩
  · rw [switchedTo_created]
    exact sane.once
  · rw [switchedTo_created]
    exact sane.numbered
  · exact sane.recorded_switch found
  · intro pair member unfinished
    rw [switchedTo_created] at member
    rw [switchedTo_finished] at unfinished
    rcases List.mem_cons.mp (live pair member unfinished) with isActive | behind
    · rw [isActive] at unfinished
      exact absurd ended unfinished
    · exact .inl behind
  · rw [switchedTo_created, switchedTo_finished]
    exact sane.known
  · intro _
    rw [Going, switchedTo_finished]
    refine ⟨open', ?_⟩
    intro ctx₀ found₀
    rw [show (switchedTo feature proc ctx').activePID = proc.nextPID from rfl,
      switchedTo_next] at found₀
    cases found₀
    exact breathes
  · intro again
    cases again

end Switch
end Steps

/-- The pending switch is to a child of the active thread. -/
def Forking (proc : RevProc σ) : Prop :=
  ∃ ctx, proc.threadTable proc.nextPID = some ctx ∧ ctx.parentPID = proc.activePID

/-- At the head of a tick: there is a PID left; a pending switch finds its hart, and SwapToParent
cleared if it is to a new child; while one waits for the pipeline no instruction is fetched or
executed. At its end: no thread with a parent comes to its end in the tick of its clone. -/
def Orderly (machine : Machine σ ι) : Phase → RevProc σ → Prop
  | .head, proc =>
    proc.pidCount.toNat + 1 < 2 ^ 32 ∧
    (proc.pendingCtxSwitch = true →
      (proc.pipeline = [] → proc.hartToExec = true ∧ (Forking proc → proc.swapToParent = false)) ∧
      (proc.pipeline ≠ [] → ∃ ctx, proc.threadTable proc.activePID = some ctx ∧
        ctx.file.cost ≠ 0 ∧ ctx.file.trigger = true))
  | .test, proc =>
    proc.pendingCtxSwitch = true → proc.hartToExec = true → Forking proc →
      ∀ ctx, proc.threadTable proc.activePID = some ctx → AtEnd machine ctx → ctx.parentPID = 0

section Run
variable {machine : Machine σ ι} {tick : Tick ι} {proc after : RevProc σ}
variable {ancestors : List (BitVec 32)}

theorem Forked.forking (forked : Forked proc) : Forking proc := by
  obtain ⟨-, -, -, child, located, parent, -⟩ := forked
  exact ⟨child, located, parent⟩

theorem fetch_pidCount (fetched : proc.fetch machine tick = .ok after) :
    after.pidCount = proc.pidCount := by
  unfold RevProc.fetch at fetched
  split at fetched
  · cases fetched
  · split at fetched
    · split at fetched
      · cases fetched
      · cases fetched
        rfl
    · cases fetched
      rfl

-- Without a pending switch a tick executes at most one instruction.
theorem Sane.execute (sane : Sane proc ancestors) (idle : proc.pendingCtxSwitch = false)
    (room : proc.pidCount.toNat + 1 < 2 ^ 32) {fetched triggered : RevProc σ}
    (fetches : proc.fetch machine tick = .ok fetched)
    (triggers : fetched.trigger machine tick = .ok triggered) : Sane triggered ancestors := by
  have quiet := fetch_quiet fetches
  have next := sane.quiet quiet
  rcases trigger_cases triggers with silent | ⟨-, middle, effect, silent⟩
  · exact next.quiet silent
  · have settled := next.effect (quiet.pendingCtxSwitch.trans idle)
      (by rw [fetch_pidCount fetches]; exact room) effect
    exact settled.quiet silent

-- With one the pipeline has to drain first.
theorem Sane.drain (sane : Sane proc ancestors) {ctx : RevThreadCtx}
    (found : proc.threadTable proc.activePID = some ctx) (busy : ctx.file.cost ≠ 0)
    (started : ctx.file.trigger = true) {fetched triggered : RevProc σ}
    (fetches : proc.fetch machine tick = .ok fetched)
    (triggers : fetched.trigger machine tick = .ok triggered) : Sane triggered ancestors := by
  have same : fetched = proc := by
    unfold RevProc.fetch at fetches
    rw [file_found found] at fetches
    simp only at fetches
    rw [if_neg fun both => busy both.1] at fetches
    exact (Except.ok.inj fetches).symm
  subst same
  rcases trigger_cases triggers with silent | ⟨⟨ctx', found', waiting⟩, -⟩
  · exact sane.quiet silent
  · rw [found] at found'
    cases found'
    rw [started] at waiting
    cases waiting

theorem Sane.advance (sane : Sane proc ancestors) (orderly : Orderly machine .head proc)
    (advanced : proc.advance machine tick = .ok after) : ∃ line, Sane after line := by
  obtain ⟨room, order⟩ := orderly
  unfold RevProc.advance at advanced
  split at advanced
  · cases advanced
  · rename_i switched switches
    split at advanced
    · cases advanced
    · rename_i fetched fetches
      split at advanced
      · cases advanced
      · rename_i triggered triggers
        have last := retire_quiet advanced
        rcases switchCtx_cases switches with ⟨notDue, rfl⟩ | ⟨⟨pending, empty⟩, -, ctx, found, rfl⟩
        · cases pending : switched.pendingCtxSwitch with
          | false => exact ⟨ancestors, (sane.execute pending room fetches triggers).quiet last⟩
          | true =>
            have full : switched.pipeline ≠ [] := fun empty => notDue ⟨pending, empty⟩
            obtain ⟨ctx, found, busy, started⟩ := (order pending).2 full
            exact ⟨ancestors, (sane.drain found busy started fetches triggers).quiet last⟩
        · obtain ⟨-, clears⟩ := (order pending).1 empty
          rcases sane.alerted pending with forked | returning
          · have next : Sane (switchedTo machine.feature proc ctx) (proc.activePID :: ancestors) :=
              sane.fork forked (clears forked.forking) found
            exact ⟨_, (next.execute rfl room fetches triggers).quiet last⟩
          · obtain ⟨rest, next, -⟩ := sane.return returning found
            exact ⟨rest, (next.execute rfl room fetches triggers).quiet last⟩

theorem reached_sane {phase : Phase} (reached : Reached machine (Orderly machine) phase proc) :
    ∃ line, Sane proc line := by
  induction reached with
  | start proc initial => exact ⟨[], Sane.initial initial⟩
  | outside before changed ih =>
    obtain ⟨line, sane⟩ := ih
    exact ⟨line, sane.quiet (Outside.quiet changed)⟩
  | advance before tick meets advanced ih =>
    obtain ⟨line, sane⟩ := ih
    exact sane.advance meets advanced
  | complete before meets completed ih =>
    obtain ⟨line, sane⟩ := ih
    refine ⟨line, sane.complete ?_ completed⟩
    intro pending valid forked
    exact meets pending valid forked.forking

/-- What is promised of the threads at the head of a tick. -/
structure Intact (machine : Machine σ ι) (proc : RevProc σ) : Prop where
  unique : ((created proc.log).map Prod.fst).Nodup
  active : ∃ ctx, proc.threadTable proc.activePID = some ctx
  parents : ∀ child parent, (child, parent) ∈ created proc.log → child ∉ finished proc.log →
    (∃ ctx, proc.threadTable child = some ctx ∧ ctx.parentPID = parent) ∧
      (parent ≠ 0 → ∃ ctx, proc.threadTable parent = some ctx)
  returns : proc.activePID ∈ finished proc.log →
    proc.pendingCtxSwitch = true ∧ (proc.activePID, proc.nextPID) ∈ created proc.log ∧
      (proc.pipeline = [] → ∃ after ctx, proc.switchCtx machine.feature = .ok after ∧
        after.activePID = proc.nextPID ∧ after.threadTable proc.nextPID = some ctx ∧
          leftWith proc.log proc.nextPID = some ctx.file.regs)
  spares : proc.activePID ∉ finished proc.log → proc.pendingCtxSwitch = true → proc.pipeline = [] →
    ∃ after ctx, proc.switchCtx machine.feature = .ok after ∧ after.activePID = proc.nextPID ∧
      after.threadTable proc.activePID = some ctx ∧ ctx.state ≠ .Dead ∧
        proc.threadTable proc.activePID = some ctx

theorem Sane.parents (sane : Sane proc ancestors) {child parent : BitVec 32}
    (member : (child, parent) ∈ created proc.log) (unfinished : child ∉ finished proc.log) :
    (∃ ctx, proc.threadTable child = some ctx ∧ ctx.parentPID = parent) ∧
      (parent ≠ 0 → ∃ ctx, proc.threadTable parent = some ctx) := by
  have named : ∀ ctx, proc.threadTable child = some ctx → ctx.parentPID = parent := by
    intro ctx found
    have same := List.inj_on_of_nodup_map sane.once (sane.recorded child ctx found) member rfl
    exact congrArg Prod.snd same
  have placed : ∃ ctx, proc.threadTable child = some ctx ∧
      (ctx.parentPID ≠ 0 → ∃ ctx', proc.threadTable ctx.parentPID = some ctx') := by
    rcases sane.live _ member unfinished with inside | ⟨pending, next⟩
    · obtain ⟨ctx, found⟩ := sane.line.present _ inside
      exact ⟨ctx, found, sane.line.parent _ inside ctx found⟩
    · rcases sane.alerted pending with ⟨-, -, -, ctx, found, isActive, -⟩ | returning
      · rw [← show child = proc.nextPID from next] at found
        refine ⟨ctx, found, ?_⟩
        intro _
        rw [isActive]
        exact sane.active
      · have inside : child ∈ proc.activePID :: ancestors := by
          obtain ⟨rest, line, -⟩ := sane.above returning
          rw [show child = proc.nextPID from next, line]
          simp
        obtain ⟨ctx', found'⟩ := sane.line.present _ inside
        exact ⟨ctx', found', sane.line.parent _ inside ctx' found'⟩
  obtain ⟨ctx, found, up⟩ := placed
  rw [named ctx found] at up
  exact ⟨⟨ctx, found, named ctx found⟩, up⟩

/-- In every run whose steps are orderly the threads are intact. -/
theorem orderly_intact (reached : Reached machine (Orderly machine) .head proc)
    (orderly : Orderly machine .head proc) : Intact machine proc := by
  obtain ⟨ancestors, sane⟩ := reached_sane reached
  obtain ⟨-, order⟩ := orderly
  constructor
  · exact sane.once
  · exact sane.active
  · intro child parent member unfinished
    exact sane.parents member unfinished
  · intro ended
    have pending : proc.pendingCtxSwitch = true := by
      cases idle : proc.pendingCtxSwitch with
      | true => rfl
      | false => exact absurd ended (sane.calm idle).1
    have returning : Returning proc :=
      (sane.alerted pending).resolve_left fun forked => forked.1.1 ended
    have ⟨_, _, child, located, parent⟩ := returning
    have made := sane.recorded _ child located
    rw [parent] at made
    refine ⟨pending, made, ?_⟩
    intro empty
    obtain ⟨valid, -⟩ := (order pending).1 empty
    obtain ⟨rest, line, -⟩ := sane.above returning
    have member : proc.nextPID ∈ ancestors := by simp [line]
    obtain ⟨-, ctx, found, -, left⟩ := sane.kept _ member
    have apart : proc.nextPID ≠ proc.activePID := by
      intro same
      have older := sane.line.older _ member
      rw [same] at older
      exact Nat.lt_irrefl _ older
    exact ⟨_, _, switchCtx_eq pending empty valid found ((swapTable_other apart).trans found), rfl,
      switchedTo_next, left⟩
  · intro unfinished pending empty
    obtain ⟨valid, clears⟩ := (order pending).1 empty
    have forked : Forked proc :=
      (sane.alerted pending).resolve_right fun returning => unfinished returning.1
    have keep := clears forked.forking
    obtain ⟨⟨-, alive⟩, -, younger, child, found, -⟩ := forked
    obtain ⟨ctx, located⟩ := sane.active
    have same : swapTable proc = proc.threadTable := by
      rw [swapTable, keep]
      rfl
    have apart : proc.activePID ≠ proc.nextPID := by
      intro equal
      rw [equal] at younger
      exact Nat.lt_irrefl _ younger
    refine ⟨_, ctx, switchCtx_eq pending empty valid found (by rw [same]; exact found), rfl, ?_,
      alive ctx located, located⟩
    rw [switchedTo_other apart, same]
    exact located

end Run

section Forks

/-- main clones, and jumps to what clone returned: the child ends, and main, with 1025 in a0, clones
again. -/
def cloneLoop : Nat → Option (Code × RevInst)
  | 1024 => some (.ecall, { (default : RevInst) with instSize := 4 })
  | 1028 => some (.func Insns.RV32I.jalr, { (default : RevInst) with rs1 := 10, instSize := 4 })
  | _ => none

def forking : Machine (Option MemCtrl.Ctrl) Unit :=
  programMachine { features := 2, xlen := 64, minCost := 1, maxCost := 1 } cloneLoop

def forkStart : RevProc (Option MemCtrl.Ctrl) :=
  freshProc
    { (default : RevRegFile) with
        rv64PC := 1024
        rv64 := fun index => if index = 17 then 220 else 0 }
    none

/-- Ticks of the first thread without a pending switch, which are orderly. -/
def firstThread (machine : Machine σ ι) : List (Tick ι) → RevProc σ → Option (RevProc σ)
  | [], proc => some proc
  | tick :: rest, proc =>
    if proc.pidCount.toNat + 1 < 2 ^ 32 ∧ proc.pendingCtxSwitch = false then
      match proc.advance machine tick with
      | .error _ => none
      | .ok middle =>
        if (middle.threadTable middle.activePID).map (·.parentPID) = some 0 then
          match middle.complete machine with
          | .ok (true, after) => firstThread machine rest after
          | _ => none
        else none
    else none

theorem firstThread_reached {machine : Machine σ ι} {ticks : List (Tick ι)} {proc after : RevProc σ}
    (reached : Reached machine (Orderly machine) .head proc)
    (walked : firstThread machine ticks proc = some after) :
    Reached machine (Orderly machine) .head after := by
  induction ticks generalizing proc with
  | nil =>
    cases walked
    exact reached
  | cons tick rest ih =>
    rw [firstThread] at walked
    split at walked
    · rename_i ready
      have head : Orderly machine .head proc := by
        refine ⟨ready.1, ?_⟩
        intro pending
        rw [ready.2] at pending
        cases pending
      split at walked
      · cases walked
      · rename_i middle advanced
        split at walked
        · rename_i orphan
          have test : Orderly machine .test middle := by
            intro _ _ _ ctx found _
            rw [found] at orphan
            exact Option.some.inj orphan
          split at walked
          · rename_i next completed
            exact ih (.complete (.advance reached tick head advanced) test completed) walked
          · cases walked
        · cases walked
    · cases walked

/-- main in front of the switch to its first child. -/
theorem orderly_intact_fork :
    ∃ proc, Reached forking (Orderly forking) .head proc ∧ proc.pendingCtxSwitch = true ∧
      Intact forking proc := by
  have seen : (firstThread forking [⟨true, ()⟩, ⟨true, ()⟩] forkStart).map
      (fun proc => (decide (proc.pidCount.toNat + 1 < 2 ^ 32), proc.pendingCtxSwitch,
        decide (proc.pipeline = []), proc.hartToExec, proc.swapToParent)) =
      some (true, true, true, true, false) := by
    decide
  obtain ⟨proc, walked, observed⟩ := Option.map_eq_some_iff.mp seen
  simp only [Prod.mk.injEq, decide_eq_true_eq] at observed
  obtain ⟨room, pending, empty, valid, keep⟩ := observed
  have reached := firstThread_reached (.start _ (freshProc_initial _ _)) walked
  have orderly : Orderly forking .head proc := by
    refine ⟨room, fun _ => ⟨fun _ => ⟨valid, fun _ => keep⟩, ?_⟩⟩
    intro full
    exact absurd empty full
  exact ⟨proc, reached, pending, orderly_intact reached orderly⟩

/-- The switch to the second child removes main, which made it. -/
theorem second_clone_removes_main :
    ¬ ∀ proc, Reached forking (fun _ _ => True) .head proc → Intact forking proc := by
  intro intact
  have seen : (walk forking (List.replicate 6 ⟨true, ()⟩) forkStart).map
      (fun proc => (decide (proc.activePID ∈ finished proc.log), proc.pendingCtxSwitch,
        decide (proc.pipeline = []), (proc.switchCtx forking.feature).toOption.map fun after =>
          (after.threadTable proc.activePID).isSome)) = some (false, true, true, some false) := by
    decide +kernel
  obtain ⟨proc, walked, observed⟩ := Option.map_eq_some_iff.mp seen
  simp only [Prod.mk.injEq, decide_eq_true_eq, decide_eq_false_iff_not] at observed
  obtain ⟨unfinished, pending, empty, gone⟩ := observed
  have reached := walk_reached (.start _ (freshProc_initial _ _)) walked
  obtain ⟨after, ctx, switched, -, kept, -⟩ :=
    (intact proc reached).spares unfinished pending empty
  rw [switched] at gone
  simp only [Except.toOption, Option.map_some, kept, Option.isSome_some] at gone
  cases gone

end Forks
end RevCPU.Threads
