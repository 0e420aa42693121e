import RevCPU.Lib.Holdings
import RevCPU.RegFile
import RevCPU.Mem
/-!
The file descriptors of the threads. openat, read and close act on the list of the thread that calls and on
the host, which has the descriptors open or not. A thread that returns to its parent is removed.
-/
namespace RevCPU.Descriptors
open Mem RegFile Holdings

/-- `fildes` of a new context. -/
def standard : List (BitVec 32) := [0, 1, 2]

/-- A context with its list, of which the other models have the rest. -/
structure ThreadCtx where
  fildes : List (BitVec 32)
  regs : RevRegFile

namespace ThreadCtx
variable (ctx : ThreadCtx) (fd : BitVec 32)

def addFD : ThreadCtx := { ctx with fildes := ctx.fildes ++ [fd] }

def findFD : Bool := ctx.fildes.contains fd

def removeFD : Bool × ThreadCtx :=
  if ctx.fildes.contains fd then (true, { ctx with fildes := ctx.fildes.erase fd }) else (false, ctx)

def argument : BitVec 32 := (ctx.regs.x64 10).setWidth 32

/-- What openat has given to the thread. A failed openat gives a negative descriptor. -/
def own : List (BitVec 32) := ctx.fildes.filter fun fd => !fd.msb && !standard.contains fd

end ThreadCtx

inductive Fault where
  | noAccess (pid fd : BitVec 32)
  | outOfRange
  | noContext (pid : BitVec 32)
  | mem (fault : MemFault)
deriving DecidableEq

structure Core where
  threadTable : BitVec 32 → Option ThreadCtx
  activePID : BitVec 32
  swapToParent : Bool
  memory : RevMem

namespace Core
variable (core : Core)

/-- HartToExecCtx, which throws if there is no such context. -/
def ctx : Except Fault ThreadCtx :=
  match core.threadTable core.activePID with
  | none => .error .outOfRange
  | some ctx => .ok ctx

def setCtx (ctx : ThreadCtx) : Core :=
  { core with threadTable := Function.update core.threadTable core.activePID (some ctx) }

/-- With the number of a hart. The comparison is the wrong way round: 0 for a hart that is there. -/
def hartToExecPID (hartToExec : Nat) : Except Fault (BitVec 32) :=
  let activePIDs := [core.activePID]
  if activePIDs.length ≤ hartToExec then
    match activePIDs[hartToExec]? with
    | none => .error .outOfRange
    | some pid => .ok pid
  else .ok 0

/-- The fatal line of a call whose thread does not have the descriptor. -/
def refuse (fd : BitVec 32) : Except Fault Core := do
  let pid ← core.hartToExecPID 0
  .error (.noAccess pid fd)

@[simp] theorem refuse_eq (fd : BitVec 32) : core.refuse fd = .error (.noAccess 0 fd) := rfl

/-- The last execution of ECALL_openat, in which the host's openat returns `fd`. -/
def ecallOpenat (fd : BitVec 32) : Except Fault Core := do
  let ctx ← core.ctx
  let ctx := ctx.addFD fd
  .ok (core.setCtx { ctx with regs := ctx.regs.setX64 10 (fd.signExtend 64) })

/-- `rc` and `tmpBuf` are what the host's read returns and leaves. -/
def ecallRead (hart : Nat) (rc : BitVec 64) (tmpBuf : Buffer) : Except Fault Core := do
  let ctx ← core.ctx
  if ctx.findFD ctx.argument = false then core.refuse ctx.argument
  else
    match core.memory.writeMem hart (ctx.regs.x64 11).toNat (ctx.regs.x64 12).toNat tmpBuf with
    | .error fault => .error (.mem fault)
    | .ok memory =>
      .ok { core.setCtx { ctx with regs := ctx.regs.setX64 10 rc } with memory := memory }

/-- `rc` is what the host's close returns. -/
def ecallClose (rc : BitVec 32) : Except Fault Core := do
  let ctx ← core.ctx
  if ctx.findFD ctx.argument = false then core.refuse ctx.argument
  else
    let (_, closed) := ctx.removeFD ctx.argument
    .ok (core.setCtx { closed with regs := closed.regs.setX64 10 (rc.signExtend 64) })

/-- CreateChildCtx with the number that GetNewThreadPID gives. The child's list is that of a new context. -/
def createChildCtx (childPID : BitVec 32) : Except Fault Core := do
  let ctx ← core.ctx
  let child : ThreadCtx := ⟨standard, ctx.regs.setX64 10 0⟩
  let table :=
    match core.threadTable childPID with
    | some _ => core.threadTable
    | none => Function.update core.threadTable childPID (some child)
  .ok { core with threadTable := table }

def changeActivePID (newPID : BitVec 32) : Except Fault Core :=
  match core.threadTable newPID with
  | none => .error (.noContext newPID)
  | some _ =>
    let table :=
      if core.swapToParent then Function.update core.threadTable core.activePID none else core.threadTable
    match table newPID with
    | none => .error (.noContext newPID)
    | some _ => .ok { core with threadTable := table, activePID := newPID }

end Core

/-- A core and its host: the descriptors that are open there, and those among them that no call can close. -/
structure System where
  core : Core
  opened : List (BitVec 32)
  lost : List (BitVec 32)

/-- openat first opens the current directory, as `dfd`. `instr` is whatever the other instructions do. -/
inductive Event where
  | openat (dfd fd : BitVec 32)
  | read (hart : Nat) (rc : BitVec 64) (tmpBuf : Buffer)
  | close (rc : BitVec 32)
  | clone (childPID : BitVec 32)
  | change (newPID : BitVec 32)
  | instr (regs : RevRegFile) (memory : RevMem) (swapToParent : Bool)

/-- The host opens a descriptor, or returns a negative number. -/
def opens (fd : BitVec 32) : List (BitVec 32) := if fd.msb then [] else [fd]

/-- What openat opens beside the file. -/
def Event.directories : Event → List (BitVec 32)
  | .openat dfd _ => opens dfd
  | _ => []

namespace System
variable (system : System)

def step : Event → Except Fault System
  | .openat dfd fd => do
    let core ← system.core.ecallOpenat fd
    .ok ⟨core, opens fd ++ (opens dfd ++ system.opened), system.lost ++ opens dfd⟩
  | .read hart rc tmpBuf => do
    let core ← system.core.ecallRead hart rc tmpBuf
    .ok { system with core := core }
  | .close rc => do
    let ctx ← system.core.ctx
    let core ← system.core.ecallClose rc
    .ok { system with core := core, opened := system.opened.erase ctx.argument }
  | .clone childPID => do
    let core ← system.core.createChildCtx childPID
    .ok { system with core := core }
  | .change newPID => do
    let ctx ← system.core.ctx
    let core ← system.core.changeActivePID newPID
    .ok { system with
      core := core
      lost := if system.core.swapToParent then system.lost ++ ctx.own else system.lost }
  | .instr regs memory swapToParent => do
    let ctx ← system.core.ctx
    .ok { system with
      core := { system.core.setCtx { ctx with regs := regs } with
        memory := memory, swapToParent := swapToParent } }

def run (system : System) : List Event → Except Fault System
  | [] => .ok system
  | event :: rest =>
    match system.step event with
    | .error fault => .error fault
    | .ok after => run after rest

structure Begun : Prop where
  first : ∃ regs, system.core.threadTable =
    Function.update (fun _ => none) system.core.activePID (some ⟨standard, regs⟩)
  opened : system.opened = standard
  lost : system.lost = standard

/-- The host opens no descriptor that is open already, and no thread closes a standard descriptor. -/
def Allowed : Event → Prop
  | .openat dfd fd => (dfd.msb = false → dfd ∉ system.opened) ∧
      (fd.msb = false → fd ∉ opens dfd ++ system.opened)
  | .close _ => ∀ ctx, system.core.threadTable system.core.activePID = some ctx → ctx.argument ∉ standard
  | _ => True

/-- Every step of the run is one of those allowed. -/
def Orderly (system : System) : List Event → Prop
  | [] => True
  | event :: rest => system.Allowed event ∧ ∀ after, system.step event = .ok after → Orderly after rest

/-- What a thread of some number holds. -/
def held (pid : BitVec 32) : List (BitVec 32) := ((system.core.threadTable pid).map ThreadCtx.own).getD []

end System

/-- Each open descriptor is held by one thread, or cannot be closed any more. -/
structure Parity (system : System) : Prop where
  accounted : Accounted system.held system.lost system.opened
  valid : ∀ fd ∈ system.opened, fd.msb = false
  aside : ∀ fd ∈ standard, fd ∈ system.lost

section Calls
variable {core after : Core} {ctx : ThreadCtx} {fd : BitVec 32}

theorem mem_own : fd ∈ ctx.own ↔ fd ∈ ctx.fildes ∧ fd.msb = false ∧ fd ∉ standard := by
  simp [ThreadCtx.own]

theorem ecallOpenat_found (called : core.ecallOpenat fd = .ok after) :
    ∃ ctx, core.threadTable core.activePID = some ctx ∧
      after = core.setCtx { ctx.addFD fd with regs := ctx.regs.setX64 10 (fd.signExtend 64) } := by
  cases found : core.threadTable core.activePID with
  | none =>
    simp only [Core.ecallOpenat, Core.ctx, found, bind, Except.bind] at called
    cases called
  | some ctx =>
    simp only [Core.ecallOpenat, Core.ctx, found, bind, Except.bind, Except.ok.injEq] at called
    exact ⟨ctx, rfl, called.symm⟩

theorem ecallRead_found {hart : Nat} {rc : BitVec 64} {tmpBuf : Buffer}
    (called : core.ecallRead hart rc tmpBuf = .ok after) :
    ∃ ctx regs memory, core.threadTable core.activePID = some ctx ∧ ctx.findFD ctx.argument = true ∧
      after = { core.setCtx { ctx with regs := regs } with memory := memory } := by
  cases found : core.threadTable core.activePID with
  | none =>
    simp only [Core.ecallRead, Core.ctx, found, bind, Except.bind] at called
    cases called
  | some ctx =>
    simp only [Core.ecallRead, Core.ctx, found, Core.refuse_eq, bind, Except.bind] at called
    split at called
    · cases called
    · rename_i access
      split at called
      · cases called
      · cases called
        exact ⟨ctx, _, _, rfl, by simpa using access, rfl⟩

theorem ecallClose_found {rc : BitVec 32} (called : core.ecallClose rc = .ok after) :
    ∃ ctx regs, core.threadTable core.activePID = some ctx ∧ ctx.findFD ctx.argument = true ∧
      after = core.setCtx ⟨ctx.fildes.erase ctx.argument, regs⟩ := by
  cases found : core.threadTable core.activePID with
  | none =>
    simp only [Core.ecallClose, Core.ctx, found, bind, Except.bind] at called
    cases called
  | some ctx =>
    simp only [Core.ecallClose, Core.ctx, found, Core.refuse_eq, bind, Except.bind] at called
    split at called
    · cases called
    · rename_i access
      have access : ctx.findFD ctx.argument = true := by simpa using access
      have listed : ctx.fildes.contains ctx.argument = true := access
      rw [ThreadCtx.removeFD, if_pos listed] at called
      cases called
      exact ⟨ctx, _, rfl, access, rfl⟩

theorem createChildCtx_found {childPID : BitVec 32} (called : core.createChildCtx childPID = .ok after) :
    after.threadTable = core.threadTable ∨ core.threadTable childPID = none ∧ ∃ regs,
      after.threadTable = Function.update core.threadTable childPID (some ⟨standard, regs⟩) := by
  cases found : core.threadTable core.activePID with
  | none =>
    simp only [Core.createChildCtx, Core.ctx, found, bind, Except.bind] at called
    cases called
  | some ctx =>
    simp only [Core.createChildCtx, Core.ctx, found, bind, Except.bind, Except.ok.injEq] at called
    rw [← called]
    dsimp only
    cases there : core.threadTable childPID with
    | none => exact .inr ⟨rfl, _, rfl⟩
    | some other => exact .inl rfl

theorem changeActivePID_found {newPID : BitVec 32} (called : core.changeActivePID newPID = .ok after) :
    after.threadTable = if core.swapToParent then Function.update core.threadTable core.activePID none
      else core.threadTable := by
  rw [Core.changeActivePID] at called
  split at called
  · cases called
  · dsimp only at called
    split at called
    · cases called
    · cases called
      rfl

end Calls

section Steps
variable {system after : System} {events : List Event}

theorem held_found {pid : BitVec 32} {ctx : ThreadCtx} (found : system.core.threadTable pid = some ctx) :
    system.held pid = ctx.own := by
  rw [System.held, found]
  rfl

theorem held_update {pid : BitVec 32} {entry : Option ThreadCtx}
    (table : after.core.threadTable = Function.update system.core.threadTable pid entry) :
    after.held = Function.update system.held pid ((entry.map ThreadCtx.own).getD []) := by
  funext other
  rw [System.held, table, Function.update_apply, Function.update_apply]
  split_ifs
  · rfl
  · rfl

theorem held_kept {pid : BitVec 32} {entry : Option ThreadCtx}
    (table : after.core.threadTable = Function.update system.core.threadTable pid entry)
    (own : (entry.map ThreadCtx.own).getD [] = system.held pid) : after.held = system.held := by
  rw [held_update table, own, Function.update_eq_self]

theorem held_setCtx (ctx : ThreadCtx) (opened lost : List (BitVec 32)) :
    System.held ⟨system.core.setCtx ctx, opened, lost⟩ =
      Function.update system.held system.core.activePID ctx.own :=
  @held_update system ⟨system.core.setCtx ctx, opened, lost⟩ _ (some ctx) rfl

theorem held_same (table : after.core.threadTable = system.core.threadTable) : after.held = system.held := by
  funext pid
  rw [System.held, System.held, table]

theorem Parity.unchanged (parity : Parity system) (held : after.held = system.held)
    (opened : after.opened = system.opened) (lost : after.lost = system.lost) : Parity after where
  accounted := by
    rw [held, opened, lost]
    exact parity.accounted
  valid := opened ▸ parity.valid
  aside := lost ▸ parity.aside

theorem Parity.standard_opened (parity : Parity system) {fd : BitVec 32} (listed : fd ∈ standard) :
    fd ∈ system.opened := (parity.accounted.exact fd).mpr (.inl (parity.aside fd listed))

theorem mem_opens {fd other : BitVec 32} : other ∈ opens fd ↔ other = fd ∧ fd.msb = false := by
  rw [opens]
  split_ifs with negative
  · simp [negative]
  · simp [negative]

theorem own_addFD {ctx : ThreadCtx} {fd : BitVec 32} (other : fd.msb = false → fd ∉ standard) :
    (ctx.addFD fd).own = ctx.own ++ opens fd := by
  rw [ThreadCtx.own, ThreadCtx.own, ThreadCtx.addFD, List.filter_append, opens]
  congr 1
  cases negative : fd.msb with
  | true => simp [negative]
  | false => simp [negative, other negative]

theorem lose_opens {held : BitVec 32 → List (BitVec 32)} {lost opened : List (BitVec 32)} {fd : BitVec 32}
    (accounted : Accounted held lost opened) (fresh : fd.msb = false → fd ∉ opened) :
    Accounted held (lost ++ opens fd) (opens fd ++ opened) := by
  cases negative : fd.msb with
  | true =>
    rw [opens, if_pos negative, List.append_nil]
    exact accounted
  | false =>
    rw [opens, if_neg (by simp [negative])]
    exact accounted.lose (fresh negative)

theorem take_opens {held : BitVec 32 → List (BitVec 32)} {lost opened : List (BitVec 32)} {fd : BitVec 32}
    (accounted : Accounted held lost opened) (fresh : fd.msb = false → fd ∉ opened) (pid : BitVec 32) :
    Accounted (Function.update held pid (held pid ++ opens fd)) lost (opens fd ++ opened) := by
  cases negative : fd.msb with
  | true =>
    rw [opens, if_pos negative, List.append_nil, Function.update_eq_self]
    exact accounted
  | false =>
    rw [opens, if_neg (by simp [negative])]
    exact accounted.take (fresh negative) pid

theorem Parity.openat (parity : Parity system) {dfd fd : BitVec 32}
    (allowed : system.Allowed (.openat dfd fd)) {core : Core}
    (called : system.core.ecallOpenat fd = .ok core) :
    Parity ⟨core, opens fd ++ (opens dfd ++ system.opened), system.lost ++ opens dfd⟩ := by
  obtain ⟨ctx, found, rfl⟩ := ecallOpenat_found called
  have other : fd.msb = false → fd ∉ standard := fun valid listed =>
    allowed.2 valid (List.mem_append_right _ (parity.standard_opened listed))
  have taken := take_opens (lose_opens parity.accounted allowed.1) allowed.2 system.core.activePID
  rw [held_found found, ← own_addFD other] at taken
  constructor
  · rw [held_setCtx]
    exact taken
  · intro one member
    rcases List.mem_append.mp member with new | rest
    · rw [(mem_opens.mp new).1]
      exact (mem_opens.mp new).2
    · rcases List.mem_append.mp rest with directory | old
      · rw [(mem_opens.mp directory).1]
        exact (mem_opens.mp directory).2
      · exact parity.valid one old
  · exact fun one listed => List.mem_append_left _ (parity.aside one listed)

theorem Parity.close (parity : Parity system) {rc : BitVec 32} (allowed : system.Allowed (.close rc))
    {ctx : ThreadCtx} (found : system.core.threadTable system.core.activePID = some ctx) {core : Core}
    (called : system.core.ecallClose rc = .ok core) :
    Parity { system with core := core, opened := system.opened.erase ctx.argument } := by
  obtain ⟨other, regs, same, access, rfl⟩ := ecallClose_found called
  obtain rfl := Option.some.inj (found.symm.trans same)
  have listed : ctx.argument ∈ ctx.fildes := List.contains_iff_mem.mp access
  have own : (⟨ctx.fildes.erase ctx.argument, regs⟩ : ThreadCtx).own = ctx.own.erase ctx.argument :=
    List.erase_filter.symm
  have accounted : Accounted (Function.update system.held system.core.activePID (ctx.own.erase ctx.argument))
      system.lost (system.opened.erase ctx.argument) := by
    rw [← held_found found]
    cases negative : ctx.argument.msb with
    | true =>
      have unheld : ctx.argument ∉ system.held system.core.activePID := by
        rw [held_found found, mem_own, negative]
        simp
      have closed : ctx.argument ∉ system.opened := by
        intro member
        have valid := parity.valid _ member
        rw [negative] at valid
        cases valid
      rw [List.erase_of_not_mem unheld, List.erase_of_not_mem closed, Function.update_eq_self]
      exact parity.accounted
    | false =>
      apply parity.accounted.release
      rw [held_found found, mem_own]
      exact ⟨listed, negative, allowed ctx found⟩
  rw [← own] at accounted
  constructor
  · rw [held_setCtx]
    exact accounted
  · exact fun one member => parity.valid one (List.mem_of_mem_erase member)
  · exact parity.aside

theorem Parity.change (parity : Parity system) {ctx : ThreadCtx}
    (found : system.core.threadTable system.core.activePID = some ctx) {newPID : BitVec 32} {core : Core}
    (called : system.core.changeActivePID newPID = .ok core) :
    Parity { system with
      core := core
      lost := if system.core.swapToParent then system.lost ++ ctx.own else system.lost } := by
  have table := changeActivePID_found called
  split_ifs at table ⊢ with parent
  · constructor
    · have held := @held_update system ⟨core, system.opened, system.lost ++ ctx.own⟩ _ none table
      rw [held, ← held_found found]
      exact parity.accounted.abandon system.core.activePID
    · exact parity.valid
    · exact fun fd listed => List.mem_append_left _ (parity.aside fd listed)
  · exact parity.unchanged (held_same table) rfl rfl

/-- What a step does to the descriptors: openat, close and the switch to a parent apart, nothing. -/
theorem step_cases {event : Event} (stepped : system.step event = .ok after) :
    (∃ dfd fd core, event = .openat dfd fd ∧ system.core.ecallOpenat fd = .ok core ∧
      after = ⟨core, opens fd ++ (opens dfd ++ system.opened), system.lost ++ opens dfd⟩) ∨
    (∃ rc ctx core, event = .close rc ∧ system.core.threadTable system.core.activePID = some ctx ∧
      system.core.ecallClose rc = .ok core ∧
      after = { system with core := core, opened := system.opened.erase ctx.argument }) ∨
    (∃ newPID ctx core, event = .change newPID ∧
      system.core.threadTable system.core.activePID = some ctx ∧
      system.core.changeActivePID newPID = .ok core ∧ after = { system with
        core := core
        lost := if system.core.swapToParent then system.lost ++ ctx.own else system.lost }) ∨
    event.directories = [] ∧ after.held = system.held ∧ after.opened = system.opened ∧
      after.lost = system.lost := by
  cases event with
  | openat dfd fd =>
    cases called : system.core.ecallOpenat fd with
    | error fault =>
      simp only [System.step, called, bind, Except.bind] at stepped
      cases stepped
    | ok core =>
      simp only [System.step, called, bind, Except.bind, Except.ok.injEq] at stepped
      exact .inl ⟨dfd, fd, core, rfl, called, stepped.symm⟩
  | read hart rc tmpBuf =>
    cases called : system.core.ecallRead hart rc tmpBuf with
    | error fault =>
      simp only [System.step, called, bind, Except.bind] at stepped
      cases stepped
    | ok core =>
      simp only [System.step, called, bind, Except.bind, Except.ok.injEq] at stepped
      obtain ⟨ctx, regs, memory, found, -, rfl⟩ := ecallRead_found called
      subst stepped
      refine .inr (.inr (.inr ⟨rfl, ?_, rfl, rfl⟩))
      exact @held_kept system _ _ (some { ctx with regs := regs }) rfl (held_found found).symm
  | close rc =>
    cases found : system.core.threadTable system.core.activePID with
    | none =>
      simp only [System.step, Core.ctx, found, bind, Except.bind] at stepped
      cases stepped
    | some ctx =>
      cases called : system.core.ecallClose rc with
      | error fault =>
        simp only [System.step, Core.ctx, found, called, bind, Except.bind] at stepped
        cases stepped
      | ok core =>
        simp only [System.step, Core.ctx, found, called, bind, Except.bind, Except.ok.injEq] at stepped
        exact .inr (.inl ⟨rc, ctx, core, rfl, rfl, called, stepped.symm⟩)
  | clone childPID =>
    cases called : system.core.createChildCtx childPID with
    | error fault =>
      simp only [System.step, called, bind, Except.bind] at stepped
      cases stepped
    | ok core =>
      simp only [System.step, called, bind, Except.bind, Except.ok.injEq] at stepped
      subst stepped
      refine .inr (.inr (.inr ⟨rfl, ?_, rfl, rfl⟩))
      rcases createChildCtx_found called with same | ⟨fresh, regs, table⟩
      · exact held_same same
      · refine held_kept table ?_
        rw [System.held, fresh]
        rfl
  | change newPID =>
    cases found : system.core.threadTable system.core.activePID with
    | none =>
      simp only [System.step, Core.ctx, found, bind, Except.bind] at stepped
      cases stepped
    | some ctx =>
      cases called : system.core.changeActivePID newPID with
      | error fault =>
        simp only [System.step, Core.ctx, found, called, bind, Except.bind] at stepped
        cases stepped
      | ok core =>
        simp only [System.step, Core.ctx, found, called, bind, Except.bind, Except.ok.injEq] at stepped
        exact .inr (.inr (.inl ⟨newPID, ctx, core, rfl, rfl, called, stepped.symm⟩))
  | instr regs memory swapToParent =>
    cases found : system.core.threadTable system.core.activePID with
    | none =>
      simp only [System.step, Core.ctx, found, bind, Except.bind] at stepped
      cases stepped
    | some ctx =>
      simp only [System.step, Core.ctx, found, bind, Except.bind, Except.ok.injEq] at stepped
      subst stepped
      refine .inr (.inr (.inr ⟨rfl, ?_, rfl, rfl⟩))
      exact @held_kept system _ _ (some { ctx with regs := regs }) rfl (held_found found).symm

theorem step_parity (parity : Parity system) {event : Event} (allowed : system.Allowed event)
    (stepped : system.step event = .ok after) : Parity after := by
  rcases step_cases stepped with ⟨dfd, fd, core, rfl, called, rfl⟩ |
    ⟨rc, ctx, core, rfl, found, called, rfl⟩ | ⟨newPID, ctx, core, rfl, found, called, rfl⟩ |
    ⟨-, held, opened, lost⟩
  · exact parity.openat allowed called
  · exact parity.close allowed found called
  · exact parity.change found called
  · exact parity.unchanged held opened lost

theorem step_lost {event : Event} (stepped : system.step event = .ok after) :
    ∀ fd, fd ∈ system.lost ∨ fd ∈ event.directories → fd ∈ after.lost := by
  rcases step_cases stepped with ⟨dfd, fd, core, rfl, -, rfl⟩ | ⟨rc, ctx, core, rfl, -, -, rfl⟩ |
    ⟨newPID, ctx, core, rfl, -, -, rfl⟩ | ⟨none, -, -, same⟩
  · exact fun _ => List.mem_append.mpr
  · rintro one (old | new)
    · exact old
    · exact absurd new List.not_mem_nil
  · rintro one (old | new)
    · dsimp only
      split_ifs
      · exact List.mem_append_left _ old
      · exact old
    · exact absurd new List.not_mem_nil
  · rintro one (old | new)
    · exact same ▸ old
    · rw [none] at new
      exact absurd new List.not_mem_nil

theorem directories_fresh (parity : Parity system) {event : Event} (allowed : system.Allowed event)
    {dfd : BitVec 32} (listed : dfd ∈ event.directories) : dfd.msb = false ∧ dfd ∉ standard := by
  cases event with
  | openat one fd =>
    obtain ⟨rfl, valid⟩ := mem_opens.mp listed
    exact ⟨valid, fun named => allowed.1 valid (parity.standard_opened named)⟩
  | _ => exact absurd listed List.not_mem_nil

theorem run_parity (parity : Parity system) (orderly : system.Orderly events)
    (ran : system.run events = .ok after) :
    Parity after ∧ (∀ fd ∈ system.lost, fd ∈ after.lost) ∧ ∀ event ∈ events, ∀ dfd ∈ event.directories,
      dfd ∈ after.lost ∧ dfd.msb = false ∧ dfd ∉ standard := by
  induction events generalizing system with
  | nil =>
    cases ran
    exact ⟨parity, fun _ member => member, fun _ member => absurd member List.not_mem_nil⟩
  | cons event rest ih =>
    obtain ⟨allowed, later⟩ := orderly
    rw [System.run] at ran
    cases stepped : system.step event with
    | error fault =>
      rw [stepped] at ran
      cases ran
    | ok next =>
      rw [stepped] at ran
      obtain ⟨kept, grows, directories⟩ := ih (step_parity parity allowed stepped) (later next stepped) ran
      refine ⟨kept, fun fd member => grows fd (step_lost stepped fd (.inl member)), ?_⟩
      intro other member dfd listed
      rcases List.mem_cons.mp member with rfl | behind
      · exact ⟨grows dfd (step_lost stepped dfd (.inr listed)), directories_fresh parity allowed listed⟩
      · exact directories other behind dfd listed

theorem System.Begun.parity (begun : system.Begun) : Parity system := by
  obtain ⟨regs, table⟩ := begun.first
  have none : ∀ pid, system.held pid = [] := by
    intro pid
    rw [System.held, table, Function.update_apply]
    split_ifs <;> rfl
  have distinct : standard.Nodup := by decide
  constructor
  · constructor
    · exact begun.opened ▸ distinct
    · intro pid
      rw [none]
      exact List.nodup_nil
    · intro pid other _ fd member
      rw [none] at member
      exact absurd member List.not_mem_nil
    · intro fd _ pid
      rw [none]
      exact List.not_mem_nil
    · intro fd
      rw [begun.opened, begun.lost]
      simp [none]
  · rw [begun.opened]
    intro fd listed
    simp only [standard, List.mem_cons, List.not_mem_nil, or_false] at listed
    rcases listed with rfl | rfl | rfl <;> rfl
  · exact fun fd listed => begun.lost ▸ listed

end Steps

/-- Threads that leave the standard descriptors open, in any order of their calls. A descriptor that passes
the check of read or close is open at the host, if openat has not failed, and no other thread passes with it.
Nothing closes the directory that openat opens, or what a thread held that has gone. -/
theorem descriptors_accounted {system after : System} (begun : system.Begun) {events : List Event}
    (orderly : system.Orderly events) (ran : system.run events = .ok after) :
    (∀ pid ctx fd, after.core.threadTable pid = some ctx → ctx.findFD fd = true → fd.msb = false →
      fd ∉ standard → fd ∈ after.opened ∧ ∀ other ctx', after.core.threadTable other = some ctx' →
        ctx'.findFD fd = true → other = pid) ∧
    (∀ fd, fd ∈ after.opened ↔
      fd ∈ after.lost ∨ ∃ pid ctx, after.core.threadTable pid = some ctx ∧ fd ∈ ctx.own) ∧
    (∀ fd ∈ after.lost, fd ∉ standard → fd ∈ after.opened ∧
      ∀ pid ctx, after.core.threadTable pid = some ctx → ctx.findFD fd = false) ∧
    ∀ event ∈ events, ∀ dfd ∈ event.directories, dfd ∈ after.lost ∧ dfd ∉ standard := by
  obtain ⟨parity, -, directories⟩ := run_parity begun.parity orderly ran
  have accounted := parity.accounted
  have owned : ∀ pid ctx fd, after.core.threadTable pid = some ctx → ctx.findFD fd = true → fd.msb = false →
      fd ∉ standard → fd ∈ after.held pid := by
    intro pid ctx fd found access valid other
    rw [held_found found, mem_own]
    exact ⟨List.contains_iff_mem.mp access, valid, other⟩
  refine ⟨?_, ?_, ?_, ?_⟩
  · intro pid ctx fd found access valid given
    have here := owned pid ctx fd found access valid given
    refine ⟨(accounted.exact fd).mpr (.inr ⟨pid, here⟩), ?_⟩
    intro other ctx' there access'
    by_contra apart
    exact accounted.apart other pid apart fd (owned other ctx' fd there access' valid given) here
  · intro fd
    rw [accounted.exact]
    refine or_congr_right ⟨?_, ?_⟩
    · rintro ⟨pid, member⟩
      cases found : after.core.threadTable pid with
      | none =>
        rw [System.held, found] at member
        exact absurd member List.not_mem_nil
      | some ctx =>
        rw [held_found found] at member
        exact ⟨pid, ctx, found, member⟩
    · rintro ⟨pid, ctx, found, member⟩
      exact ⟨pid, held_found found ▸ member⟩
  · intro fd member other
    have opened := (accounted.exact fd).mpr (.inl member)
    refine ⟨opened, fun pid ctx found => ?_⟩
    by_contra access
    exact accounted.aside fd member pid
      (owned pid ctx fd found (by simpa using access) (parity.valid fd opened) other)
  · intro event member dfd listed
    have lost := directories event member dfd listed
    exact ⟨lost.1, lost.2.2⟩

/-- The thread 1024 on a core that has just been reset. -/
def firstSystem : System where
  core :=
    { threadTable := Function.update (fun _ => none) 1024 (some ⟨standard, default⟩)
      activePID := 1024
      swapToParent := false
      memory := RevMem.new 1048576 16 0 0 }
  opened := standard
  lost := standard

def openClose : List Event :=
  [.openat 3 4, .instr { (default : RevRegFile) with rv64 := fun _ => 4 } (RevMem.new 1048576 16 0 0) false,
    .close 0]

theorem descriptors_accounted_close : ∃ after, firstSystem.run openClose = .ok after ∧
    after.opened = [3, 0, 1, 2] ∧ (3 : BitVec 32) ∈ after.lost := by
  have orderly : firstSystem.Orderly openClose := by
    refine ⟨⟨fun _ => by decide, fun _ => by decide⟩, fun opened first => ?_⟩
    obtain rfl := Except.ok.inj first
    refine ⟨trivial, fun armed second => ?_⟩
    obtain rfl := Except.ok.inj second
    refine ⟨fun ctx found => ?_, fun _ _ => trivial⟩
    obtain rfl := Option.some.inj found
    decide
  refine ⟨_, rfl, rfl, ?_⟩
  exact ((descriptors_accounted ⟨⟨default, rfl⟩, rfl, rfl⟩ orderly rfl).2.2.2 (.openat 3 4)
    List.mem_cons_self 3 (by decide)).1

end RevCPU.Descriptors
