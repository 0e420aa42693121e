import RevCPU.ProcRun
import RevCPU.PrefetchWord
import RevCPU.Lib.CString
/-!
The system calls that read guest memory over several ticks. Each execution of the ecall reads one piece
into `ECALL_buf`, which the members `ECALL_string` and `ECALL_bytesRead` carry over to the next one, and
ExecEcall rewinds the PC until the call answers SUCCESS. With a memory controller the piece is there by the
next execution: the hart waits for the load hazard.
-/
namespace RevCPU.Ecall
open Feature InstTable RegFile Proc Mem CString

/-- What the host is asked with the guest's bytes; `data` is as much behind the pointer as belongs to the
string it points into. -/
inductive HostCall where
  | write (fildes : BitVec 32) (data : List Byte) (nbytes : BitVec 64)
  | chdir (path : List Byte)
  | openat (path : List Byte)
  | mkdirat (fd : BitVec 32) (path : List Byte) (mode : BitVec 32)
deriving DecidableEq

/-- The members of RevProc that the calls share, beside the memory. `reads` and `calls` record what was
read of the guest and asked of the host. -/
structure Shared (σ : Type) where
  memory : σ
  ecallBuf : Buffer
  ecallString : List Byte
  ecallBytesRead : BitVec 32
  reads : List (BitVec 64 × Nat)
  calls : List HostCall

/-- ReadVal: the target, the memory and the load hazard after it; and what the host returns to the last of
the calls. -/
structure Env (σ : Type) where
  feature : RevFeature
  readVal : BitVec 64 → Nat → Buffer → σ → Option (Buffer × σ × Bool)
  host : List HostCall → BitVec 32

section Dependency
variable (feature : RevFeature) (file : CtxFile) (regNum : BitVec 8) (isFloat : Bool)

-- The overloads of DependencySet and DependencyClear for a register.
def dependencySetReg : CtxFile :=
  if regNum ≠ 0 ∧ regNum.toNat < numRegs then setBit file (bankOf feature isFloat) regNum true else file

def dependencyClearReg : CtxFile :=
  if regNum ≠ 0 ∧ regNum.toNat < numRegs then setBit file (bankOf feature isFloat) regNum false else file

end Dependency

section Calls
variable {σ : Type} (env : Env σ) (file : CtxFile) (inst : RevInst) (shared : Shared σ)

/-- `ECALL_buf` as a C string; it has 64 characters. -/
def bufString (buf : Buffer) : List Byte := cString (shown buf 64)

def readBuf (addr : BitVec 64) (len : Nat) : Option (Shared σ × Bool) :=
  match env.readVal addr len shared.ecallBuf shared.memory with
  | none => none
  | some (buf, memory, hazard) =>
    some ({ shared with
      memory := memory, ecallBuf := buf, reads := shared.reads ++ [(addr, len)] }, hazard)

/-- The end of a call: the host is asked, x10 takes its answer and the buffers are reset. -/
def finish (call : HostCall) (bytesRead : BitVec 32) : EcallOutcome (Shared σ) where
  regs := file.regs.setX64 10 ((env.host (shared.calls ++ [call])).signExtend 64)
  board := (dependencyClearReg env.feature file 10 false).board
  memory := { shared with
    ecallBuf := Function.update shared.ecallBuf 0 0, ecallString := []
    ecallBytesRead := bytesRead, calls := shared.calls ++ [call] }
  hazard := inst.hazard == some true
  status := .SUCCESS

/-- How much of what remains the next piece is. -/
def chunkLen (remaining : BitVec 64) : Nat :=
  if 1 = remaining then 1 else if 3 ≥ remaining then 2 else if 7 ≥ remaining then 4 else 8

-- The NUL behind a piece is put before its bytes can have come.
def ecallWrite : Option (EcallOutcome (Shared σ)) :=
  let fildes := (file.regs.x64 10).setWidth 32
  let nbytes := file.regs.x64 12
  let bytesRead := shared.ecallBytesRead.setWidth 64
  if bytesRead = nbytes then
    let string := shared.ecallString ++ bufString shared.ecallBuf
    some (finish env file inst shared (.write fildes ((string ++ [0]).take nbytes.toNat) nbytes) 0)
  else
    let string :=
      if 0 < shared.ecallBytesRead then shared.ecallString ++ bufString shared.ecallBuf
      else shared.ecallString
    let len := chunkLen (nbytes - bytesRead)
    match readBuf env { shared with ecallString := string } (file.regs.x64 11 + bytesRead) len with
    | none => none
    | some (shared, hazard) =>
      some
        { regs := file.regs
          board := (dependencySetReg env.feature file 10 false).board
          memory := { shared with
            ecallBuf := Function.update shared.ecallBuf len 0
            ecallBytesRead := shared.ecallBytesRead + BitVec.ofNat 32 len }
          hazard := hazard
          status := .CONTINUE }

/-- The loop of the calls that take a path: in the middle of the string, at its terminator, or at the first
execution. `marks` is whether x10 is marked again in the middle. -/
def readPath (addr : BitVec 64) (marks : Bool) (call : List Byte → HostCall) :
    Option (EcallOutcome (Shared σ)) :=
  let marked := (dependencySetReg env.feature file 10 false).board
  if shared.ecallBuf 0 ≠ 0 then
    let string := shared.ecallString ++ [shared.ecallBuf 0]
    match readBuf env { shared with ecallString := string } (addr + BitVec.ofNat 64 string.length) 1 with
    | none => none
    | some (shared, hazard) =>
      some ⟨file.regs, if marks then marked else file.board, shared, hazard, .CONTINUE⟩
  else if 0 < shared.ecallString.length then
    let string := shared.ecallString ++ [shared.ecallBuf 0]
    some (finish env file inst shared (call (cString string)) shared.ecallBytesRead)
  else
    match readBuf env shared addr 1 with
    | none => none
    | some (shared, hazard) => some ⟨file.regs, marked, shared, hazard, .CONTINUE⟩

def ecallChdir : Option (EcallOutcome (Shared σ)) :=
  readPath env file inst shared (file.regs.x64 10) false .chdir

-- The address is kept in an int.
def ecallOpenat : Option (EcallOutcome (Shared σ)) :=
  readPath env file inst shared (((file.regs.x64 11).setWidth 32).signExtend 64) true .openat

def ecallMkdirat : Option (EcallOutcome (Shared σ)) :=
  readPath env file inst shared (file.regs.x64 11) true fun path =>
    .mkdirat ((file.regs.x64 10).setWidth 32) path ((file.regs.x64 12).setWidth 32)

/-- The part of the table `Ecalls` modelled here; its keys have 32 bits. The other calls are `rest`. -/
def otherEcall
    (rest : BitVec 64 → BitVec 32 → CtxFile → RevInst → Shared σ → Option (EcallOutcome (Shared σ)))
    (code : BitVec 64) (pid : BitVec 32) : Option (EcallOutcome (Shared σ)) :=
  if code.setWidth 32 = 34#32 then ecallMkdirat env file inst shared
  else if code.setWidth 32 = 49#32 then ecallChdir env file inst shared
  else if code.setWidth 32 = 56#32 then ecallOpenat env file inst shared
  else if code.setWidth 32 = 64#32 then ecallWrite env file inst shared
  else rest code pid file inst shared

end Calls

def calling {σ ι : Type} (machine : Machine (Shared σ) ι) (env : Env σ) : Machine (Shared σ) ι :=
  { machine with
      feature := env.feature
      otherEcall := fun code pid file inst shared =>
        otherEcall env file inst shared machine.otherEcall code pid }

section Turns
variable {σ ι : Type} (machine : Machine (Shared σ) ι) (inst : RevInst)

/-- The function of the ECALL instruction: the exception is raised and the PC moves on. -/
def raise (file : CtxFile) : CtxFile :=
  let regs :=
    if isRV32 machine.feature then
      { file.regs with rv32PC := file.regs.rv32PC + BitVec.ofNat 32 inst.instSize }
    else { file.regs with rv64PC := file.regs.rv64PC + BitVec.ofNat 64 inst.instSize }
  { file with regs := regs, ecall := true }

def turn (proc : RevProc (Shared σ)) (file : CtxFile) : Except Fault (RevProc.Served (Shared σ)) :=
  proc.execEcall machine (raise machine inst file) inst

/-- The ecall is executed again and again until it is done; `earlier` are the executions before the last. -/
inductive Completes : RevProc (Shared σ) → CtxFile → List (RevProc.Served (Shared σ)) →
    RevProc.Served (Shared σ) → Prop
  | last {proc : RevProc (Shared σ)} {file : CtxFile} {served : RevProc.Served (Shared σ)}
    (turned : turn machine inst proc file = .ok served) (done : served.status = .SUCCESS) :
    Completes proc file [] served
  | again {proc : RevProc (Shared σ)} {file : CtxFile} {next last : RevProc.Served (Shared σ)}
    {earlier : List (RevProc.Served (Shared σ))} (turned : turn machine inst proc file = .ok next)
    (more : next.status ≠ .SUCCESS) (rest : Completes next.proc next.file earlier last) :
    Completes proc file (next :: earlier) last

end Turns

section Specs
variable {σ ι : Type} {machine : Machine (Shared σ) ι} {env : Env σ} {inst : RevInst}
  {proc : RevProc (Shared σ)} {file : CtxFile}

def ecallCode (feature : RevFeature) (file : CtxFile) : BitVec 64 :=
  if isRV32 feature then (file.regs.x32 17).setWidth 64 else file.regs.x64 17

def ecallOf (env : Env σ) (machine : Machine (Shared σ) ι) (proc : RevProc (Shared σ)) (file : CtxFile)
    (inst : RevInst) : Option (EcallOutcome (Shared σ)) :=
  otherEcall env (raise (calling machine env) inst file) inst proc.memory machine.otherEcall
    (ecallCode env.feature file) proc.activePID

theorem raise_x64 (index : BitVec 8) : (raise machine inst file).regs.x64 index = file.regs.x64 index := by
  unfold raise
  split
  · rfl
  · rfl

theorem raise_x32 (index : BitVec 8) : (raise machine inst file).regs.x32 index = file.regs.x32 index := by
  unfold raise
  split
  · rfl
  · rfl

theorem raise_code (feature : RevFeature) :
    ecallCode feature (raise machine inst file) = ecallCode feature file := by
  rw [ecallCode, raise_x32, raise_x64, ecallCode]

/-- The core after an execution that was answered with an outcome. -/
def answered (proc : RevProc (Shared σ)) (file : CtxFile) (outcome : EcallOutcome (Shared σ)) :
    RevProc.Served (Shared σ) :=
  ⟨{ proc with memory := outcome.memory }, file, outcome.hazard, outcome.status⟩

section Turn
variable (clone : (ecallCode env.feature file).setWidth 32 ≠ 220#32)
  (exit : (ecallCode env.feature file).setWidth 32 ≠ 93#32)
include clone exit

theorem turn_none (called : ecallOf env machine proc file inst = none) :
    turn (calling machine env) inst proc file = .error .fatal := by
  unfold turn RevProc.execEcall
  dsimp only
  rw [show (if isRV32 (calling machine env).feature = true then _ else _) = ecallCode env.feature file
    from raise_code env.feature]
  unfold RevProc.ecall
  rw [if_neg clone, if_neg exit]
  rw [show (calling machine env).otherEcall (ecallCode env.feature file) proc.activePID
    (raise (calling machine env) inst file) inst proc.memory = none from called]

variable {outcome : EcallOutcome (Shared σ)} (called : ecallOf env machine proc file inst = some outcome)
include called

theorem turn_some : turn (calling machine env) inst proc file =
    .ok (answered proc
      (let file := { raise (calling machine env) inst file with
        regs := outcome.regs, board := outcome.board, ecall := decide (outcome.status = .CONTINUE) }
      if outcome.status = .SUCCESS then file
      else if isRV32 env.feature then
        { file with regs := { file.regs with
          rv32PC := file.regs.rv32PC - BitVec.ofNat 32 inst.instSize } }
      else { file with regs := { file.regs with
        rv64PC := file.regs.rv64PC - BitVec.ofNat 64 inst.instSize } }) outcome) := by
  unfold turn RevProc.execEcall
  dsimp only
  rw [show (if isRV32 (calling machine env).feature = true then _ else _) = ecallCode env.feature file
    from raise_code env.feature]
  unfold RevProc.ecall
  rw [if_neg clone, if_neg exit]
  rw [show (calling machine env).otherEcall (ecallCode env.feature file) proc.activePID
    (raise (calling machine env) inst file) inst proc.memory = some outcome from called]
  dsimp only
  by_cases done : outcome.status = .SUCCESS
  · rw [if_pos done, if_pos done]
    rfl
  · rw [if_neg done, if_neg done]
    by_cases narrow : isRV32 env.feature = true
    · rw [if_pos narrow, if_pos (show isRV32 (calling machine env).feature = true from narrow)]
      rfl
    · rw [if_neg narrow, if_neg (show ¬ isRV32 (calling machine env).feature = true from narrow)]
      rfl

/-- An execution that does not complete the call leaves the registers and the PC as they were. -/
theorem turn_continue (kept : outcome.regs = (raise (calling machine env) inst file).regs)
    (more : outcome.status = .CONTINUE) : turn (calling machine env) inst proc file =
      .ok (answered proc { file with board := outcome.board, ecall := true } outcome) := by
  rw [turn_some clone exit called]
  dsimp only
  rw [more, if_neg (by decide), kept]
  unfold raise
  by_cases narrow : isRV32 env.feature = true
  · rw [if_pos narrow]
    simp only [if_pos (show isRV32 (calling machine env).feature = true from narrow),
      BitVec.add_sub_cancel]
    rfl
  · rw [if_neg narrow]
    simp only [if_neg (show ¬ isRV32 (calling machine env).feature = true from narrow),
      BitVec.add_sub_cancel]
    rfl

theorem turn_success (done : outcome.status = .SUCCESS) : turn (calling machine env) inst proc file =
    .ok (answered proc
      { file with regs := outcome.regs, board := outcome.board, ecall := false } outcome) := by
  rw [turn_some clone exit called]
  dsimp only
  rw [done, if_pos rfl]
  unfold raise
  rfl

end Turn

/-- The buffers as a reset or a completed call leaves them. -/
structure Clean (shared : Shared σ) : Prop where
  bytesRead : shared.ecallBytesRead = 0
  string : shared.ecallString = []
  buf : shared.ecallBuf 0 = 0

/-- Reads of up to eight bytes inside a range give its bytes and leave it readable. -/
structure Serves (env : Env σ) (ok : σ → Prop) (base : BitVec 64) (bytes : Nat → Byte) (count : Nat) :
    Prop where
  read : ∀ memory target offset len, ok memory → 1 ≤ len → len ≤ 8 → offset + len ≤ count →
    ∃ buf after hazard, env.readVal (base + BitVec.ofNat 64 offset) len target memory =
      some (buf, after, hazard) ∧ ok after ∧
      ∀ index, buf index = if index < len then bytes (offset + index) else target index

theorem Serves.readBuf {ok : σ → Prop} {base : BitVec 64} {bytes : Nat → Byte} {count : Nat}
    (serves : Serves env ok base bytes count) {shared : Shared σ} (readable : ok shared.memory)
    {offset len : Nat} (some_byte : 1 ≤ len) (small : len ≤ 8) (inside : offset + len ≤ count) :
    ∃ buf memory hazard, readBuf env shared (base + BitVec.ofNat 64 offset) len =
      some ({ shared with
        memory := memory, ecallBuf := buf
        reads := shared.reads ++ [(base + BitVec.ofNat 64 offset, len)] }, hazard) ∧ ok memory ∧
      ∀ index, buf index = if index < len then bytes (offset + index) else shared.ecallBuf index := by
  obtain ⟨buf, memory, hazard, read, stays, same⟩ :=
    serves.read shared.memory shared.ecallBuf offset len readable some_byte small inside
  refine ⟨buf, memory, hazard, ?_, stays, same⟩
  rw [Ecall.readBuf, read]

section Memory
open MemRefine Prefetch

/-- ReadVal on the memory of the simulator without a controller. -/
def readLocal (addr : BitVec 64) (len : Nat) (target : Buffer) (mem : RevMem) :
    Option (Buffer × RevMem × Bool) :=
  match mem.readMem 0 addr.toNat len target 0 with
  | .error _ => none
  | .ok (reply, mem) => some (reply.target, mem, reply.hazard)

theorem serves_readLocal (feature : RevFeature) (host : List HostCall → BitVec 32) {mem : RevMem}
    (settled : Settled mem) {base : BitVec 64} {count : Nat} (room : base.toNat + count < 2 ^ 64)
    (valid : ∀ step < count, mem.isValidVirtAddr (base.toNat + step) = true) :
    Serves ⟨feature, readLocal, host⟩ (fun after => Unseen mem after) base
      (fun index => byteAt mem (base.toNat + index)) count := by
  constructor
  intro memory target offset len unseen some_byte small inside
  have settled := settled.unseen unseen
  have place : (base + BitVec.ofNat 64 offset).toNat = base.toNat + offset := by
    rw [BitVec.toNat_add, BitVec.toNat_ofNat]
    omega
  have touchable : Touchable memory (base.toNat + offset) len := by
    apply touchable_of_valid some_byte
    intro step within
    rw [Nat.add_assoc, isValidVirtAddr_layout unseen.layout]
    exact valid _ (by omega)
  obtain ⟨after, read, further⟩ := readMem_valid settled.sized settled.coherent settled.positive
    (Nat.le_trans small (by decide)) touchable 0 target 0
  refine ⟨flatLoad (byteAt memory) (base.toNat + offset) len target, after, false, ?_,
    unseen.trans further, ?_⟩
  · change readLocal (base + BitVec.ofNat 64 offset) len target memory = _
    unfold readLocal
    rw [place, read]
  · intro index
    unfold flatLoad
    rw [unseen.view, Nat.add_assoc]

end Memory
end Specs

section Program
open MemRefine Prefetch

/-- A core whose memory holds `program`, and nothing but the system calls. -/
def guestEnv : Env RevMem where
  feature := { features := 2, xlen := 64, minCost := 1, maxCost := 1 }
  readVal := readLocal
  host := fun _ => 0

def guestMachine : Machine (Shared RevMem) Unit where
  feature := guestEnv.feature
  isFloat := fun _ => false
  decode := fun _ _ => none
  execute := fun _ _ _ _ _ => none
  readVal := fun _ _ _ => none
  otherEcall := fun _ _ _ _ _ => none
  ctrl := fun _ => none

def guestFile (regs : BitVec 8 → BitVec 64) : CtxFile where
  regs := { (default : RevRegFile) with rv64PC := 1024, rv64 := regs }
  cost := 0
  trigger := false
  entry := 0
  board := fun _ _ => false
  ecall := false

def guestProc (regs : BitVec 8 → BitVec 64) : RevProc (Shared RevMem) :=
  freshProc (guestFile regs).regs ⟨program, fun _ => 0, [], 0, [], []⟩

theorem guest_clean (regs : BitVec 8 → BitVec 64) : Clean (guestProc regs).memory := ⟨rfl, rfl, rfl⟩

theorem program_unseen : Unseen program program :=
  .of_pageMap program_settled.coherent rfl rfl rfl rfl program_settled.coherent.cached

theorem serves_program {base : BitVec 64} {count : Nat} (above : 1047552 ≤ base.toNat)
    (below : base.toNat + count ≤ 2097152) :
    Serves guestEnv (fun after => Unseen program after) base
      (fun index => byteAt program (base.toNat + index)) count := by
  apply serves_readLocal guestEnv.feature guestEnv.host program_settled
  · omega
  · intro step inside
    rw [isValidVirtAddr_layout (show layout program = layout (RevMem.new 2097152 16 1 0) from rfl),
      valid_stack_only]
    omega

end Program
end RevCPU.Ecall
