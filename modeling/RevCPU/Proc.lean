import RevCPU.MemCtrl
import RevCPU.PanExec
/-!
One core of RevProc.cc with its threads: a clock tick is a pending context switch, the fetch of an
instruction, its execution, its retirement and the test for completion, in this order. There is one
hart, as `_REV_HART_COUNT_` has it. What an instruction decodes to and what its table function does
are parameters, so an injected fault is one of the things they may do; the system calls other than
clone and exit are one too. `RegFile` points into the context of the active PID and changes with it.
-/
namespace RevCPU.Proc
open Feature InstTable RegFile Pan

def panFwareJump : BitVec 64 := 0x10000

def numRegs : Nat := 32

inductive Bank where
  | rv32 | rv64 | spf | dpf
deriving DecidableEq, Repr

/-- The register file of a context with what the pipeline keeps in it. `ecall` is whether a cause
register holds ECALL_USER_MODE. -/
structure CtxFile where
  regs : RevRegFile
  cost : BitVec 32
  trigger : Bool
  entry : Nat
  board : Bank → BitVec 8 → Bool
  ecall : Bool

inductive ThreadState where
  | Running | Waiting | Sleeping | Dead
deriving DecidableEq, Repr

structure RevThreadCtx where
  parentPID : BitVec 32
  state : ThreadState
  file : CtxFile

/-- What the core reports of its threads; a switch comes with the registers it leaves behind. -/
inductive Notice where
  | created (child parent : BitVec 32)
  | exited (pid : BitVec 32)
  | completed (pid : BitVec 32)
  | switched (old new : BitVec 32) (left : Option RevRegFile)

inductive Fault where
  | fatal | outOfRange | emptyPipeline | exit
deriving DecidableEq, Repr

structure Fetched where
  inst : RevInst
  entry : Nat
  cost : BitVec 32

/-- What a table function leaves: `extra` is what it adds to the cost, `hazard` the load hazard. -/
structure Outcome (σ : Type) where
  regs : RevRegFile
  memory : σ
  hazard : Bool
  extra : BitVec 32
  ecall : Bool

inductive EcallStatus where
  | SUCCESS | CONTINUE | ERROR
deriving DecidableEq, Repr

structure EcallOutcome (σ : Type) where
  regs : RevRegFile
  board : Bank → BitVec 8 → Bool
  memory : σ
  hazard : Bool
  status : EcallStatus

/-- The code around the tick, over the state of the memory `σ` and what a tick is given, `ι`. -/
structure Machine (σ ι : Type) where
  feature : RevFeature
  isFloat : Nat → Bool
  decode : RevRegFile → σ → Option Fetched
  execute : Nat → RevInst → ι → RevRegFile → σ → Option (Outcome σ)
  readVal : BitVec 64 → RevInst → σ → Option (σ × Bool)
  otherEcall : BitVec 64 → BitVec 32 → CtxFile → RevInst → σ → Option (EcallOutcome σ)
  ctrl : σ → Option MemCtrl.Ctrl

/-- `hartToExec` is whether HartToExec is the hart or the invalid id. -/
structure RevProc (σ : Type) where
  threadTable : BitVec 32 → Option RevThreadCtx
  activePID : BitVec 32
  hartToExec : Bool
  cte : Bool
  halted : Bool
  stalled : Bool
  singleStep : Bool
  inst : RevInst
  execPC : BitVec 64
  pipeline : List RevInst
  pendingCtxSwitch : Bool
  nextPID : BitVec 32
  swapToParent : Bool
  pidCount : BitVec 32
  ecallBytesRead : Nat
  pExec : Option PanExec
  memory : σ
  log : List Notice

/-- What a tick is given from outside: whether the instruction is in the prefetch buffer. -/
structure Tick (ι : Type) where
  avail : Bool
  seed : ι

section Dependency
variable (feature : RevFeature) (isFloat : Nat → Bool)

def bankOf (float : Bool) : Bank :=
  if isRV32 feature then if float then .spf else .rv32 else if float then .dpf else .rv64

def dependencyCheck (file : CtxFile) (inst : RevInst) : Bool :=
  let busy := fun rs : BitVec 8 =>
    decide (rs.toNat ≤ numRegs) && file.board (bankOf feature (isFloat inst.entry)) rs
  inst.hazard == some true || busy inst.rs1 || busy inst.rs2 || busy inst.rs3

def setBit (file : CtxFile) (bank : Bank) (index : BitVec 8) (value : Bool) : CtxFile :=
  { file with
      board := Function.update file.board bank (Function.update (file.board bank) index value) }

def dependencySet (file : CtxFile) (inst : RevInst) : CtxFile :=
  if inst.rd ≠ 0 ∧ inst.rd.toNat < numRegs then
    setBit file (bankOf feature (isFloat inst.entry)) inst.rd true
  else file

def dependencyClear (file : CtxFile) (inst : RevInst) : CtxFile :=
  if inst.rd.toNat < numRegs then setBit file (bankOf feature (isFloat inst.entry)) inst.rd false
  else file

end Dependency

def getPC (feature : RevFeature) (regs : RevRegFile) : BitVec 64 :=
  if feature.xlen = 32 then regs.rv32PC.setWidth 64 else regs.rv64PC

def setPC (feature : RevFeature) (regs : RevRegFile) (pc : BitVec 64) : RevRegFile :=
  if feature.xlen = 32 then { regs with rv32PC := pc.setWidth 32 } else { regs with rv64PC := pc }

namespace RevProc
variable {σ ι : Type}

section Threads
variable (proc : RevProc σ)

def file : Except Fault CtxFile :=
  match proc.threadTable proc.activePID with
  | some ctx => .ok ctx.file
  | none => .error .fatal

def setCtx (pid : BitVec 32) (ctx : RevThreadCtx) : RevProc σ :=
  { proc with threadTable := Function.update proc.threadTable pid (some ctx) }

def setFile (file : CtxFile) : RevProc σ :=
  { proc with
      threadTable := Function.update proc.threadTable proc.activePID
        ((proc.threadTable proc.activePID).map fun ctx => { ctx with file := file }) }

def ctxSwitchAlert (newPID : BitVec 32) : RevProc σ :=
  { proc with nextPID := newPID, pendingCtxSwitch := true }

/-- The active context is removed when the flag says that the switch is to a parent. -/
def changeActivePID (newPID : BitVec 32) : Except Fault (RevProc σ) :=
  match proc.threadTable newPID with
  | none => .error .fatal
  | some _ =>
    if proc.hartToExec then
      let table :=
        if proc.swapToParent then Function.update proc.threadTable proc.activePID none
        else proc.threadTable
      let left := (proc.threadTable proc.activePID).map fun ctx => ctx.file.regs
      match table newPID with
      | none => .error .fatal
      | some _ =>
        .ok { proc with
          threadTable := table, activePID := newPID
          log := proc.log ++ [.switched proc.activePID newPID left] }
    else .error .outOfRange

def switchCtx (feature : RevFeature) : Except Fault (RevProc σ) :=
  if proc.pendingCtxSwitch ∧ proc.pipeline = [] then
    match proc.changeActivePID proc.nextPID with
    | .error fault => .error fault
    | .ok proc =>
      match proc.file with
      | .error fault => .error fault
      | .ok file =>
        .ok { proc.setFile { file with trigger := false, cost := 0 } with
          execPC := getPC feature file.regs, pendingCtxSwitch := false, nextPID := 0 }
  else .ok proc

def getNewThreadPID : BitVec 32 × RevProc σ :=
  (proc.pidCount + 1, { proc with pidCount := proc.pidCount + 1 })

/-- A child with the registers of the active thread. An existing context of its PID stays. -/
def createChildCtx (file : CtxFile) : BitVec 32 × RevProc σ :=
  let (childPID, proc) := proc.getNewThreadPID
  let child : RevThreadCtx :=
    { parentPID := proc.activePID, state := .Waiting
      file := { file with regs := file.regs.setX64 10 0, ecall := false } }
  let table :=
    match proc.threadTable childPID with
    | some _ => proc.threadTable
    | none => Function.update proc.threadTable childPID (some child)
  (childPID,
    { proc with threadTable := table, log := proc.log ++ [.created childPID proc.activePID] })

end Threads

section Ecalls
variable (machine : Machine σ ι) (proc : RevProc σ) (file : CtxFile) (inst : RevInst)

structure Served (σ : Type) where
  proc : RevProc σ
  file : CtxFile
  hazard : Bool
  status : EcallStatus

/-- clone reads its arguments and comes back; the flags in them change nothing. -/
def ecallClone : Except Fault (Served σ) :=
  let hazard := inst.hazard == some true
  if proc.ecallBytesRead = 0 then
    match machine.readVal (file.regs.x64 10) inst proc.memory with
    | none => .error .fatal
    | some (memory, hazard) =>
      .ok ⟨{ proc with memory := memory, ecallBytesRead := 8 }, file, hazard, .CONTINUE⟩
  else
    let (childPID, proc) := proc.createChildCtx file
    let proc := proc.ctxSwitchAlert childPID
    match proc.threadTable childPID with
    | none => .error .outOfRange
    | some child =>
      let child := { child with file := { child.file with regs := child.file.regs.setX64 10 0 } }
      .ok ⟨{ proc.setCtx childPID child with ecallBytesRead := 0 },
        { file with regs := file.regs.setX64 10 (childPID.setWidth 64) }, hazard, .SUCCESS⟩

/-- exit ends the simulation in a thread without a parent. -/
def ecallExit : Except Fault (Served σ) :=
  match proc.threadTable proc.activePID with
  | none => .error .outOfRange
  | some ctx =>
    if ctx.parentPID = 0 then .error .exit
    else
      .ok ⟨{ proc.ctxSwitchAlert ctx.parentPID with log := proc.log ++ [.exited proc.activePID] },
        file, inst.hazard == some true, .SUCCESS⟩

/-- The table `Ecalls`; its keys have 32 bits. -/
def ecall (code : BitVec 64) : Except Fault (Served σ) :=
  if code.setWidth 32 = 220#32 then proc.ecallClone machine file inst
  else if code.setWidth 32 = 93#32 then proc.ecallExit file inst
  else
    match machine.otherEcall code proc.activePID file inst proc.memory with
    | none => .error .fatal
    | some outcome =>
      .ok ⟨{ proc with memory := outcome.memory },
        { file with regs := outcome.regs, board := outcome.board }, outcome.hazard, outcome.status⟩

/-- The PC is rewound until the call is complete. -/
def execEcall : Except Fault (Served σ) :=
  let code :=
    if isRV32 machine.feature then (file.regs.x32 17).setWidth 64 else file.regs.x64 17
  match proc.ecall machine file inst code with
  | .error fault => .error fault
  | .ok served =>
    let file := { served.file with ecall := decide (served.status = .CONTINUE) }
    if served.status = .SUCCESS then .ok { served with file := file }
    else
      let regs :=
        if isRV32 machine.feature then
          { file.regs with rv32PC := file.regs.rv32PC - BitVec.ofNat 32 inst.instSize }
        else { file.regs with rv64PC := file.regs.rv64PC - BitVec.ofNat 64 inst.instSize }
      .ok { served with file := { file with regs := regs } }

end Ecalls

section Stages
variable (machine : Machine σ ι) (tick : Tick ι) (proc : RevProc σ)

def prefetchInst (file : CtxFile) : Bool :=
  let pc := getPC machine.feature file.regs
  if pc = 0 ∨ pc = panFwareJump then false else tick.avail

/-- The next instruction, with the file that DecodeInst leaves. -/
def decodeNext (file : CtxFile) : Option (RevInst × CtxFile) :=
  if prefetchInst machine tick file then
    match machine.decode file.regs proc.memory with
    | none => none
    | some fetched =>
      some (fetched.inst,
        { file with cost := fetched.cost, entry := fetched.entry, trigger := false })
  else some (resetInst proc.inst, file)

/-- Fetch and decode where the cost is used up. A stall or a dependency invalidates HartToExec. -/
def fetch : Except Fault (RevProc σ) :=
  match proc.file with
  | .error fault => .error fault
  | .ok file =>
    if file.cost = 0 ∧ proc.halted = false then
      let stalled := !prefetchInst machine tick file
      match proc.decodeNext machine tick file with
      | none => .error .fatal
      | some (inst, file) =>
        let inst := { inst with entry := file.entry, hazard := none }
        let blocked := stalled || dependencyCheck machine.feature machine.isFloat file inst
        let file := if blocked then { file with cost := 0 } else file
        .ok { proc.setFile file with
          stalled := stalled
          inst := { inst with cost := file.cost, entry := file.entry }
          cte := !blocked
          hartToExec := !blocked
          execPC := getPC machine.feature file.regs }
    else .ok proc

/-- Execution of the last instruction of the pipeline, which is the fetched one unless a context
switch is pending. -/
def issue (file : CtxFile) : Except Fault (RevProc σ) :=
  let pipeline :=
    if proc.pendingCtxSwitch then proc.pipeline
    else proc.pipeline ++ [{ proc.inst with hazard := some false }]
  match pipeline.getLast? with
  | none => .error .emptyPipeline
  | some back =>
    let file := dependencySet machine.feature machine.isFloat file back
    match machine.execute file.entry back tick.seed file.regs proc.memory with
    | none => .error .fatal
    | some outcome =>
      let back := { back with hazard := some outcome.hazard }
      let file :=
        { file with
            regs := outcome.regs, cost := file.cost + outcome.extra
            ecall := file.ecall || outcome.ecall }
      let proc := { proc with memory := outcome.memory }
      if file.ecall then
        match proc.execEcall machine file back with
        | .error fault => .error fault
        | .ok served =>
          .ok { served.proc.setFile served.file with
            pipeline := pipeline.dropLast ++ [{ back with hazard := some served.hazard }] }
      else .ok { proc.setFile file with pipeline := pipeline.dropLast ++ [back] }

def trigger : Except Fault (RevProc σ) :=
  match proc.file with
  | .error fault => .error fault
  | .ok file =>
    if proc.hartToExec ∧ file.trigger = false ∧ proc.halted = false ∧ proc.cte then
      let file := { file with trigger := true }
      let issued :=
        if proc.execPC = panFwareJump then .ok (proc.setFile file) else proc.issue machine tick file
      match issued with
      | .error fault => .error fault
      | .ok proc =>
        if proc.singleStep then .ok { proc with singleStep := false, halted := true } else .ok proc
    else .ok proc

/-- The cost that the load hazards add goes to a copy of the pipeline. -/
def retire : Except Fault (RevProc σ) :=
  match proc.pipeline with
  | [] => .ok proc
  | front :: rest =>
    if 0 < front.cost then
      let lowered := front.cost - 1
      if lowered = 0 ∧ front.hazard = some false then
        match proc.file with
        | .error fault => .error fault
        | .ok file =>
          let file := dependencyClear machine.feature machine.isFloat file front
          .ok { proc.setFile { file with cost := 0 } with pipeline := rest }
      else .ok { proc with pipeline := { front with cost := lowered + 1 } :: rest }
    else .ok proc

end Stages

section Completion
variable (machine : Machine σ ι) (proc : RevProc σ)

/-- RevMem::outstandingRqsts, by RevBasicMemCtrl::outstandingRqsts where there is a controller. -/
def outstandingRqsts : Bool :=
  match machine.ctrl proc.memory with
  | some ctrl => decide (0 < ctrl.requests.length)
  | none => false

/-- The search of the PAN queue: `done`, and the core with its new PC. -/
def findWork (file : CtxFile) : Bool × RevProc σ :=
  if getPC machine.feature file.regs = panFwareJump then
    match proc.pExec with
    | none => (true, proc)
    | some exec =>
      match exec.getNextEntry with
      | (.QExec, addr, exec) =>
        (false, { proc.setFile { file with regs := setPC machine.feature file.regs addr } with
          pExec := some exec })
      | (.QNull, _, _) => (false, proc)
      | _ => (true, proc)
  else (true, proc)

def complete : Except Fault (Bool × RevProc σ) :=
  match proc.file with
  | .error fault => .error fault
  | .ok file =>
    let pc := getPC machine.feature file.regs
    if pc = panFwareJump ∨ pc = 0 then
      let (done, proc) := proc.findWork machine file
      let done := if proc.outstandingRqsts machine then false else done
      if proc.hartToExec then
        match proc.threadTable proc.activePID with
        | none => .error .outOfRange
        | some ctx =>
          if ctx.parentPID ≠ 0 then
            let proc := proc.ctxSwitchAlert ctx.parentPID
            .ok (true, { proc.setCtx proc.activePID { ctx with state := .Dead } with
              swapToParent := true, log := proc.log ++ [.completed proc.activePID] })
          else .ok (false, proc)
      else .ok (!done, proc)
    else .ok (true, proc)

end Completion

section Tick
variable (machine : Machine σ ι) (tick : Tick ι) (proc : RevProc σ)

def advance : Except Fault (RevProc σ) :=
  match proc.switchCtx machine.feature with
  | .error fault => .error fault
  | .ok proc =>
    match proc.fetch machine tick with
    | .error fault => .error fault
    | .ok proc =>
      match proc.trigger machine tick with
      | .error fault => .error fault
      | .ok proc => proc.retire machine

def clockTick : Except Fault (Bool × RevProc σ) :=
  match proc.advance machine tick with
  | .error fault => .error fault
  | .ok proc => proc.complete machine

end Tick
end RevProc
end RevCPU.Proc
