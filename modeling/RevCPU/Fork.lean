import RevCPU.Clone
/-!
clone from its first execution to its last. It completes exactly when its flags can be read, in two
executions, and leaves one thread more: a copy of the thread that called it, at the instruction behind the
ecall.
-/
namespace RevCPU.Clone
open Feature InstTable RegFile Proc Mem

/-- A thread that is forked: `old` in front of the ecall and `parent` behind it, with its `child`. -/
structure Forks (inst : RevInst) (before after : Core) (old parent child : ThreadCtx) : Prop where
  fresh : before.threadTable child.pid = none
  born : after.threadTable child.pid = some child
  active : after.threadTable before.activePID = some parent
  others : ∀ pid, pid ≠ child.pid → pid ≠ before.activePID →
    after.threadTable pid = before.threadTable pid
  activePID : after.activePID = before.activePID
  named : child.parentPID = before.activePID
  duplicates : Duplicates child.regFile parent.regFile
  causes : parent.regFile.csr64.scause = 0 ∧ parent.regFile.csr32.scause = 0
  returned : parent.regFile.x64 10 = child.pid.setWidth 64
  kept64 : ∀ index, index ≠ 10 → parent.regFile.x64 index = old.regFile.x64 index
  kept32 : ∀ index, parent.regFile.x32 index = old.regFile.x32 index
  keptSPF : parent.regFile.spf = old.regFile.spf
  keptDPF : parent.regFile.dpf = old.regFile.dpf
  behind : parent.regFile.rv64PC = old.regFile.rv64PC + BitVec.ofNat 64 inst.instSize
  kept32PC : parent.regFile.rv32PC = old.regFile.rv32PC
  pending : after.pendingCtxSwitch = true
  next : after.nextPID = child.pid
  clean : Clean after
  counted : Counted after

section Files
variable {feature : RevFeature} {inst : RevInst} {child file : WholeFile}

-- The parent's own file differs from the copied one where its child's does, or in the causes.
theorem Duplicates.parent (duplicates : Duplicates child file) (value : BitVec 64) :
    Duplicates child ((file.setCauses 0).setX64 10 value) where
  x32 index inside := by
    rw [duplicates.x32 index inside]
    exact (RevRegFile.x32_setX64 file.toRevRegFile 10 index value).symm
  x64 index inside := by
    rw [duplicates.x64 index inside]
    by_cases a0 : index = 10
    · rw [if_pos a0, if_pos a0]
    · rw [if_neg a0, if_neg a0]
      exact (RevRegFile.x64_setX64_ne file.toRevRegFile 10 index (Ne.symm a0) value).symm
  spf index inside := by
    rw [duplicates.spf index inside]
    exact (congrFun (setX64_rest file.toRevRegFile 10 value).1 index).symm
  dpf index inside := by
    rw [duplicates.dpf index inside]
    exact (congrFun (setX64_rest file.toRevRegFile 10 value).2.1 index).symm
  csr64 := duplicates.csr64
  csr32 := duplicates.csr32
  fcsr := duplicates.fcsr
  rv64PC := duplicates.rv64PC.trans (RevRegFile.setX64_rv64PC file.toRevRegFile 10 value).symm
  rv32PC := duplicates.rv32PC.trans (setX64_rest file.toRevRegFile 10 value).2.2.symm

theorem ecall_regs (wide : isRV32 feature = false) (file : WholeFile) :
    (file.ecall feature inst).toRevRegFile =
      { file.toRevRegFile with rv64PC := file.rv64PC + BitVec.ofNat 64 inst.instSize } := by
  unfold WholeFile.ecall
  rw [wide]
  rfl

theorem rewound_regs (inst : RevInst) (wide : isRV32 feature = false) (file : WholeFile)
    (status : EcallStatus) :
    (rewound inst (file.ecall feature inst) status).toRevRegFile = file.toRevRegFile := by
  change { (file.ecall feature inst).toRevRegFile with
    rv64PC := (file.ecall feature inst).toRevRegFile.rv64PC - BitVec.ofNat 64 inst.instSize } = _
  rw [ecall_regs wide]
  dsimp only
  rw [BitVec.add_sub_cancel]

end Files

theorem Waits.refl (core : Core) : Waits core core where
  active := by
    cases found : core.threadTable core.activePID with
    | none => exact ⟨0, false, 0, fun _ _ => false, rfl⟩
    | some ctx =>
      exact ⟨ctx.regFile.cost, ctx.regFile.trigger, ctx.regFile.entry, ctx.regFile.board, rfl⟩
  others _ _ := rfl
  activePID := rfl
  pidCount := Nat.le_refl _
  pendingCtxSwitch := rfl
  nextPID := rfl
  ecallBuf := rfl
  ecallBytesRead := rfl

/-- A thread that is back at its ecall, in front of the second execution. -/
structure Resumed (core resumed : Core) (old ctx : ThreadCtx) : Prop where
  active : resumed.threadTable resumed.activePID = some ctx
  regs : ctx.regFile.toRevRegFile = old.regFile.toRevRegFile
  others : ∀ pid, pid ≠ core.activePID → resumed.threadTable pid = core.threadTable pid
  activePID : resumed.activePID = core.activePID
  pidCount : core.pidCount.toNat ≤ resumed.pidCount.toNat
  fetched : resumed.ecallBytesRead ≠ 0

section Runs
variable {feature : RevFeature} {others : Core.Others} {inst : RevInst} {core resumed : Core}
  {old ctx : ThreadCtx}

theorem Resumed.of_waits (wide : isRV32 feature = false)
    (found : core.threadTable core.activePID = some old) {reply : RevMem.ReadReply} {mem : RevMem}
    (waits : Waits ((afterRead core reply mem).setRegFile
      (rewound inst (old.regFile.ecall feature inst) .CONTINUE)) resumed) :
    ∃ ctx, Resumed core resumed old ctx := by
  rw [setRegFile_eq (afterRead core reply mem) found] at waits
  obtain ⟨cost, trigger, entry, board, active⟩ := waits.active
  dsimp only at active
  rw [Function.update_self, Option.map_some] at active
  refine ⟨_, (congrArg resumed.threadTable waits.activePID).trans active, ?_, ?_, waits.activePID,
    waits.pidCount, ?_⟩
  · exact rewound_regs inst wide old.regFile .CONTINUE
  · intro pid other
    rw [waits.others pid other]
    exact Function.update_of_ne other _ _
  · rw [waits.ecallBytesRead]
    exact (by decide : (8 : BitVec 32) ≠ 0)

theorem Resumed.called (resumes : Resumed core resumed old ctx)
    (called : (old.regFile.x64 17).setWidth 32 = 220#32) :
    (ctx.regFile.x64 17).setWidth 32 = 220#32 := by
  rw [resumes.regs]
  exact called

theorem Resumed.fresh (resumes : Resumed core resumed old ctx) (counted : Counted core)
    (found : core.threadTable core.activePID = some old) (pid : BitVec 32)
    (new : resumed.pidCount.toNat < pid.toNat) :
    pid ≠ core.activePID ∧ core.threadTable pid = none ∧ resumed.threadTable pid = none := by
  have counts := resumes.pidCount
  have apart : pid ≠ core.activePID := by
    rintro rfl
    have bound := counted _ _ found
    omega
  have none : core.threadTable pid = none := by
    cases taken : core.threadTable pid with
    | none => rfl
    | some ctx =>
      have bound := counted _ _ taken
      omega
  exact ⟨apart, none, (resumes.others pid apart).trans none⟩

theorem Resumed.counted (resumes : Resumed core resumed old ctx) (counted : Counted core)
    (found : core.threadTable core.activePID = some old) : Counted resumed := by
  intro pid other taken
  have counts := resumes.pidCount
  by_cases active : pid = core.activePID
  · have bound := counted _ _ found
    rw [active]
    omega
  · rw [resumes.others pid active] at taken
    have bound := counted _ _ taken
    omega

theorem toNat_next {count : BitVec 32} (room : count.toNat + 1 < 2 ^ 32) :
    (count + 1).toNat = count.toNat + 1 := by
  rw [BitVec.toNat_add]
  exact Nat.mod_eq_of_lt room

theorem Resumed.forks (resumes : Resumed core resumed old ctx) (wide : isRV32 feature = false)
    (found : core.threadTable core.activePID = some old) (counted : Counted core)
    (room : resumed.pidCount.toNat + 1 < 2 ^ 32) {parent child : ThreadCtx}
    (made : parent = parentOf resumed ctx ((ctx.regFile.ecall feature inst).setCauses 0))
    (born : child = childOf resumed (ctx.regFile.ecall feature inst)) :
    Forks inst core (afterFork resumed parent child) old parent child := by
  have next := toNat_next room
  have pid : child.pid = resumed.pidCount + 1 := by rw [born]; rfl
  obtain ⟨apart, unborn, fresh⟩ := resumes.fresh counted found child.pid (by rw [pid]; omega)
  have regs : parent.regFile.toRevRegFile =
      { old.regFile.toRevRegFile with
        rv64PC := old.regFile.rv64PC + BitVec.ofNat 64 inst.instSize }.setX64 10
          (child.pid.setWidth 64) := by
    rw [made, pid, ← resumes.regs, ← ecall_regs wide]
    rfl
  constructor
  · exact unborn
  · exact Function.update_self ..
  · refine (Function.update_of_ne (Ne.symm apart) _ _).trans ?_
    rw [← resumes.activePID]
    exact Function.update_self ..
  · intro other notChild notActive
    refine (Function.update_of_ne notChild _ _).trans ?_
    rw [← resumes.activePID] at notActive
    refine (Function.update_of_ne notActive _ _).trans ?_
    rw [resumes.activePID] at notActive
    exact resumes.others other notActive
  · exact resumes.activePID
  · rw [born]
    exact resumes.activePID
  · rw [born, made]
    exact (duplicates_child _ default).parent _
  · rw [made]
    exact ⟨rfl, rfl⟩
  · rw [regs]
    exact RevRegFile.x64_setX64 _ _ _
  · intro index a0
    rw [regs, RevRegFile.x64_setX64_ne _ _ _ (Ne.symm a0)]
    rfl
  · intro index
    rw [regs, RevRegFile.x32_setX64]
    rfl
  · rw [regs, (setX64_rest _ _ _).1]
  · rw [regs, (setX64_rest _ _ _).2.1]
  · rw [regs, RevRegFile.setX64_rv64PC]
  · rw [regs, (setX64_rest _ _ _).2.2]
  · rfl
  · rfl
  · exact ⟨rfl, Function.update_self 0 0 resumed.ecallBuf⟩
  · intro other some taken
    change other.toNat ≤ child.pid.toNat
    have before := resumes.counted counted found
    by_cases new : other = child.pid
    · exact Nat.le_of_eq (congrArg BitVec.toNat new)
    · replace taken := (Function.update_of_ne new _ _).symm.trans taken
      have bound : other.toNat ≤ resumed.pidCount.toNat := by
        by_cases active : other = resumed.activePID
        · rw [active]
          exact before _ _ resumes.active
        · exact before _ _ ((Function.update_of_ne active _ _).symm.trans taken)
      rw [pid]
      omega

theorem read_of_completes (wide : isRV32 feature = false)
    (found : core.threadTable core.activePID = some old)
    (called : (old.regFile.x64 17).setWidth 32 = 220#32) (clean : Clean core) {earlier : List Served}
    {last : Served} (completes : Completes feature others inst core earlier last) :
    ∃ reply mem, core.mem.readMem 0 (old.regFile.x64 10).toNat 8 core.ecallBuf 0 = .ok (reply, mem) := by
  cases read : core.mem.readMem 0 (old.regFile.x64 10).toNat 8 core.ecallBuf 0 with
  | ok pair => exact ⟨pair.1, pair.2, rfl⟩
  | error fault =>
    have faults := turn_faults others inst wide found called clean.bytesRead read
    cases completes with
    | last turned =>
      rw [faults] at turned
      cases turned
    | again turned =>
      rw [faults] at turned
      cases turned

theorem completes_of_read (wide : isRV32 feature = false)
    (found : core.threadTable core.activePID = some old)
    (called : (old.regFile.x64 17).setWidth 32 = 220#32) (clean : Clean core)
    {reply : RevMem.ReadReply} {mem : RevMem}
    (read : core.mem.readMem 0 (old.regFile.x64 10).toNat 8 core.ecallBuf 0 = .ok (reply, mem)) :
    ∃ earlier last, Completes feature others inst core earlier last ∧
      last.core.pidCount = core.pidCount + 1 := by
  have first := turn_reads others inst wide found called clean.bytesRead read
  obtain ⟨ctx, resumes⟩ := Resumed.of_waits wide found (Waits.refl
    ((afterRead core reply mem).setRegFile (rewound inst (old.regFile.ecall feature inst) .CONTINUE)))
  obtain ⟨last, second, done, next⟩ := turn_ends others inst wide resumes.active
    (resumes.called called) resumes.fetched
  exact ⟨_, last, .again first (show EcallStatus.CONTINUE ≠ .SUCCESS by decide) (.refl _)
    (.last second done), next⟩

-- The second execution of a thread that is back at its ecall is the last.
theorem Resumed.completes (resumes : Resumed core resumed old ctx) (wide : isRV32 feature = false)
    (found : core.threadTable core.activePID = some old)
    (called : (old.regFile.x64 17).setWidth 32 = 220#32) (counted : Counted core)
    {earlier : List Served} {last : Served}
    (completes : Completes feature others inst resumed earlier last)
    (counts : core.pidCount.toNat < last.core.pidCount.toNat) :
    earlier = [] ∧ ∃ parent child, Forks inst core last.core old parent child := by
  obtain ⟨served, ends, done, next⟩ := turn_ends others inst wide resumes.active
    (resumes.called called) resumes.fetched
  cases completes with
  | last turned =>
    rw [ends] at turned
    cases turned
    have room : resumed.pidCount.toNat + 1 < 2 ^ 32 := by
      have bound := resumed.pidCount.isLt
      have before := resumes.pidCount
      rw [next, BitVec.toNat_add] at counts
      change _ < (resumed.pidCount.toNat + 1) % 2 ^ 32 at counts
      omega
    have fresh := (resumes.fresh counted found (resumed.pidCount + 1)
      (by rw [toNat_next room]; omega)).2.2
    have forked := turn_forks others inst wide resumes.active
      (resumes.called called) resumes.fetched fresh
    rw [ends] at forked
    cases forked
    exact ⟨rfl, _, _, resumes.forks wide found counted room rfl rfl⟩
  | again turned more =>
    rw [ends] at turned
    cases turned
    exact absurd done more

/-- Every clone of RV64 whose flags can be read completes, and it does so in two executions, of which the
first rewinds the PC and the second, unless the counter of PIDs went round, forks the thread. -/
theorem clone_forks (wide : isRV32 feature = false)
    (found : core.threadTable core.activePID = some old)
    (called : (old.regFile.x64 17).setWidth 32 = 220#32) (clean : Clean core) (counted : Counted core) :
    ((∃ earlier last, Completes feature others inst core earlier last) ↔
      ∃ reply mem, core.mem.readMem 0 (old.regFile.x64 10).toNat 8 core.ecallBuf 0 =
        .ok (reply, mem)) ∧
    ∀ earlier last, Completes feature others inst core earlier last →
      core.pidCount.toNat < last.core.pidCount.toNat →
      ∃ first parent child, earlier = [first] ∧ first.status = .CONTINUE ∧
        first.core.regFile.map (fun file => file.rv64PC) = some old.regFile.rv64PC ∧
        Forks inst core last.core old parent child := by
  refine ⟨⟨?_, ?_⟩, ?_⟩
  · rintro ⟨earlier, last, completes⟩
    exact read_of_completes wide found called clean completes
  · rintro ⟨reply, mem, read⟩
    obtain ⟨earlier, last, completes, -⟩ := completes_of_read wide found called clean read
    exact ⟨earlier, last, completes⟩
  · intro earlier last completes counts
    obtain ⟨reply, mem, read⟩ := read_of_completes wide found called clean completes
    have reads := turn_reads others inst wide found called clean.bytesRead read
    cases completes with
    | last turned done =>
      rw [reads] at turned
      cases turned
      cases done
    | again turned more waits rest =>
      rw [reads] at turned
      cases turned
      obtain ⟨ctx, resumes⟩ := Resumed.of_waits wide found waits
      obtain ⟨rfl, parent, child, forks⟩ := resumes.completes wide found called counted rest counts
      refine ⟨_, parent, child, rfl, rfl, ?_, forks⟩
      rw [regFile_found (setRegFile_found (afterRead core reply mem) found _)]
      exact congrArg (fun regs => some regs.rv64PC) (rewound_regs inst wide old.regFile .CONTINUE)

end Runs

/-- A thread at a clone whose arguments lie in its stack. -/
def cloningThread : ThreadCtx where
  pid := 1024
  parentPID := 0
  state := .Waiting
  regFile :=
    { (default : WholeFile) with
        rv64 := fun index => if index = 17 then 220 else 1310720, rv64PC := 4096 }

def cloning : Core where
  threadTable := fun pid => if pid = 1024 then some cloningThread else none
  activePID := 1024
  pidCount := 1024
  pendingCtxSwitch := false
  nextPID := 0
  ecallBuf := fun _ => 0
  ecallBytesRead := 0
  mem := RevMem.new 2097152 16 1 0

theorem clone_forks_thread : ∃ earlier last parent child,
    Completes { features := 2, xlen := 64, minCost := 1, maxCost := 1 } (fun _ _ _ => .error .other)
      { (default : RevInst) with instSize := 4 } cloning earlier last ∧
    Forks { (default : RevInst) with instSize := 4 } cloning last.core cloningThread parent child := by
  have counted : Counted cloning := by
    intro pid ctx taken
    have first : pid = 1024 := by
      by_contra other
      exact absurd ((if_neg other).symm.trans taken) nofun
    rw [first]
    decide
  have seen : (cloning.mem.readMem 0 (cloningThread.regFile.x64 10).toNat 8 cloning.ecallBuf 0).toOption.map
      (fun _ => ()) = some () := rfl
  obtain ⟨⟨reply, mem⟩, read, -⟩ := ok_of_seen seen
  have ends : ∃ earlier last,
      Completes { features := 2, xlen := 64, minCost := 1, maxCost := 1 } (fun _ _ _ => .error .other)
        { (default : RevInst) with instSize := 4 } cloning earlier last ∧
      last.core.pidCount = cloning.pidCount + 1 := completes_of_read rfl rfl rfl ⟨rfl, rfl⟩ read
  obtain ⟨earlier, last, completes, next⟩ := ends
  obtain ⟨first, parent, child, -, -, -, forks⟩ :=
    (clone_forks rfl rfl rfl ⟨rfl, rfl⟩ counted).2 earlier last completes (by rw [next]; decide)
  exact ⟨earlier, last, parent, child, completes, forks⟩

end RevCPU.Clone
