import RevCPU.PanClock
/-!
The test harness of the PAN: ExecPANTest, which puts the packets of one stage after the other into the
mailbox, and clockTickPANTest, which takes the place of clockTick where the harness is enabled.
-/
namespace RevCPU.Pan
open Mem RegFile

/-- What the harness keeps beside the CPU. Nothing sets `lToken` before the first stage. -/
structure Harness where
  testStage : Nat
  testIters : Nat
  privTag : BitVec 8
  lToken : BitVec 64

namespace Harness
variable (harness : Harness)

def createTag : BitVec 8 × Harness :=
  if harness.privTag = 0b11111111 then (0, { harness with privTag := 1 })
  else (harness.privTag, { harness with privTag := harness.privTag + 1 })

/-- `testStage++`. -/
def next : Harness := { harness with testStage := harness.testStage + 1 }

end Harness

def testDest : Int := 1
def testBase : BitVec 64 := 0x80
def testBuf : BitVec 64 := 0xdeadbeef

namespace PanCPU
variable (cpu : PanCPU) (harness : Harness)

/-- One packet of the harness: it is built with `LToken` and a new tag, and sent to the device. -/
def testPush (build : PanNicEvent → BitVec 32 → BitVec 8 → PanNicEvent) : PanCPU × Harness :=
  let (tag, harness) := harness.createTag
  (cpu.push (build (PanNicEvent.new.setSrc cpu.address) (harness.lToken.setWidth 32) tag) testDest, harness)

/-- The loop that the stages 1 to 8 share, at turn `i` and with `left` turns to go. -/
def testLoop (build : BitVec 64 → PanNicEvent → BitVec 32 → BitVec 8 → PanNicEvent) (cpu : PanCPU)
    (harness : Harness) (i : Nat) : Nat → PanCPU × Harness
  | 0 => (cpu, harness)
  | left + 1 =>
    let (cpu, harness) := cpu.testPush harness (build (testBase + BitVec.ofNat 64 (i * 8 % 2 ^ 32)))
    testLoop build cpu harness (i + 1) left

def testPuts (build : PanNicEvent → BitVec 32 → BitVec 8 → BitVec 64 → BitVec 32 →
    (Nat → BitVec 64) → PanNicEvent) : PanCPU × Harness :=
  let (cpu, harness) := testLoop (fun addr event token tag => build event token tag addr 8 fun _ => testBuf)
    cpu harness 0 harness.testIters
  (cpu, harness.next)

def testGets (build : PanNicEvent → BitVec 32 → BitVec 8 → BitVec 64 → BitVec 32 → PanNicEvent) :
    PanCPU × Harness :=
  let (cpu, harness) := testLoop (fun addr event token tag => build event token tag addr 8)
    cpu harness 0 harness.testIters
  (cpu, harness.next)

/-- The completion is written to the device, and to the memory of this CPU. -/
def testCompletion : Except PanFault (PanCPU × Harness) :=
  let (cpu, harness) := cpu.testPush harness.next fun event token tag =>
    event.buildSyncPut token tag (BitVec.ofNat 64 completionAddr) 8 fun _ => testBuf
  match cpu.mem.writeMem 0 completionAddr 8 (bytesOf testBuf) with
  | .error fault => .error (.mem fault)
  | .ok mem => .ok ({ cpu with mem := mem }, harness)

def execPANTest : Except PanFault (PanCPU × Harness) :=
  if cpu.trackTags ≠ [] then .ok (cpu, harness)
  else
    match harness.testStage with
    | 0 =>
      let (cpu, harness) := cpu.testPush { harness with lToken := 0xfeedbeef } .buildReserve
      .ok (cpu, harness.next)
    | 1 => .ok (cpu.testPuts harness .buildSyncPut)
    | 2 => .ok (cpu.testGets harness .buildSyncGet)
    | 3 => .ok (cpu.testPuts harness .buildAsyncPut)
    | 4 => .ok (cpu.testGets harness .buildAsyncGet)
    | 5 => .ok (cpu.testPuts harness .buildSyncStreamPut)
    | 6 => .ok (cpu.testGets harness .buildSyncStreamGet)
    | 7 => .ok (cpu.testPuts harness .buildAsyncStreamPut)
    | 8 => .ok (cpu.testGets harness .buildAsyncStreamGet)
    | 9 => cpu.testCompletion harness
    | 10 =>
      let (cpu, harness) := cpu.testPush harness .buildRevoke
      .ok (cpu, harness.next)
    | _ => .ok (cpu, harness)

end PanCPU

/-- `_MAX_PAN_TEST_`. -/
def maxPanTest : Nat := 11

namespace Node
variable (config : ClockConfig) (node : Node) (harness : Harness) (input : TickInput)

/-- Whether the end of the simulation is signalled, and the state after the tick. -/
def clockTickPANTest : Except PanFault (Bool × Node × Harness) := do
  let (cpu, harness) ← node.cpu.execPANTest harness
  let ran := { cpu with mem := input.mem, procs := input.procs, pExec := input.exec }
  let cpu ← ran.sendMessages config.msgPerCycle
  let enabled := node.runCores input
  let waits := (!cpu.sendMB.isEmpty || !cpu.trackTags.isEmpty) && decide (harness.testStage < maxPanTest)
  .ok (!enabled.any id && !waits, ⟨cpu, enabled, node.prevAddr⟩, harness)

end Node

def stageOpcode : Nat → PanOpcode
  | 0 => .Reserve
  | 2 => .SyncGet
  | 3 => .AsyncPut
  | 4 => .AsyncGet
  | 5 => .SyncStreamPut
  | 6 => .SyncStreamGet
  | 7 => .AsyncStreamPut
  | 8 => .AsyncStreamGet
  | 10 => .Revoke
  | _ => .SyncPut

def stageLength (testIters : Nat) : Nat → Nat
  | 0 | 9 | 10 => 1
  | stage => if stage < 9 then testIters else 0

def testToken : BitVec 32 := 0xfeedbeef

/-- A packet of the harness: where it comes from and goes to, its token and its opcode. -/
structure Made (source : Int) (token : BitVec 32) (opcode : PanOpcode) (post : PanNicEvent × Int) :
    Prop where
  dest : post.2 = testDest
  src : post.1.src = source
  token : post.1.token = token
  opcode : post.1.opcode = opcode

/-- What ExecPANTest does where no tag is outstanding: the packets of the stage are added to the mailbox. -/
structure Tested (cpu : PanCPU) (harness : Harness) (posts : List (PanNicEvent × Int)) (after : PanCPU)
    (last : Harness) : Prop where
  same : after = { cpu with mem := after.mem, sendMB := cpu.sendMB ++ posts }
  length : posts.length = stageLength harness.testIters harness.testStage
  made : ∀ post ∈ posts, Made cpu.address testToken (stageOpcode harness.testStage) post
  stage : last.testStage =
    if harness.testStage < maxPanTest then harness.testStage + 1 else harness.testStage
  iters : last.testIters = harness.testIters
  armed : last.lToken.setWidth 32 = testToken

theorem stageOpcode_requests (stage : Nat) : (stageOpcode stage).responds = false := by
  rw [stageOpcode.eq_def]
  split <;> rfl

section Stages
variable {cpu after : PanCPU} {harness last : Harness} {opcode : PanOpcode}

/-- A builder that gives its packet the opcode and the token, and leaves its source alone. -/
def Builds (opcode : PanOpcode) (build : PanNicEvent → BitVec 32 → BitVec 8 → PanNicEvent) : Prop :=
  ∀ event token tag, (build event token tag).src = event.src ∧ (build event token tag).token = token ∧
    (build event token tag).opcode = opcode

theorem buildGet_builds (opcode : PanOpcode) (addr : BitVec 64) (size : BitVec 32) :
    Builds opcode fun event token tag => event.buildGet token tag opcode addr size := by
  intro event token tag
  dsimp only
  rw [PanNicEvent.buildGet, setSize_eq]
  exact ⟨rfl, rfl, rfl⟩

theorem buildPut_builds (opcode : PanOpcode) (addr : BitVec 64) (size : BitVec 32)
    (data : Nat → BitVec 64) :
    Builds opcode fun event token tag => event.buildPut token tag opcode addr size data := by
  intro event token tag
  have head := buildGet_builds opcode addr size event token tag
  dsimp only at head ⊢
  rw [PanNicEvent.buildPut, PanNicEvent.setData]
  split_ifs
  · exact head
  · exact head

theorem createTag_same (harness : Harness) :
    ∃ tag privTag, harness.createTag = (tag, { harness with privTag := privTag }) := by
  rw [Harness.createTag]
  split_ifs
  · exact ⟨_, _, rfl⟩
  · exact ⟨_, _, rfl⟩

theorem testPush_made {build : PanNicEvent → BitVec 32 → BitVec 8 → PanNicEvent}
    (builds : Builds opcode build) :
    ∃ post tag, cpu.testPush harness build = ({ cpu with sendMB := cpu.sendMB ++ [post] },
      { harness with privTag := tag }) ∧ Made cpu.address (harness.lToken.setWidth 32) opcode post := by
  obtain ⟨tag, privTag, created⟩ := createTag_same harness
  have fields := builds (PanNicEvent.new.setSrc cpu.address) (harness.lToken.setWidth 32) tag
  refine ⟨(_, testDest), privTag, ?_, rfl, fields.1, fields.2.1, fields.2.2⟩
  rw [PanCPU.testPush, created]
  rfl

theorem testLoop_made {build : BitVec 64 → PanNicEvent → BitVec 32 → BitVec 8 → PanNicEvent}
    (builds : ∀ addr, Builds opcode (build addr)) (i left : Nat) :
    ∃ posts tag, PanCPU.testLoop build cpu harness i left =
        ({ cpu with sendMB := cpu.sendMB ++ posts }, { harness with privTag := tag }) ∧
      posts.length = left ∧ ∀ post ∈ posts, Made cpu.address (harness.lToken.setWidth 32) opcode post := by
  induction left generalizing cpu harness i with
  | zero =>
    refine ⟨[], harness.privTag, ?_, rfl, fun _ member => absurd member List.not_mem_nil⟩
    rw [List.append_nil]
    rfl
  | succ left ih =>
    obtain ⟨post, tag, pushed, made⟩ :=
      @testPush_made cpu harness _ _ (builds (testBase + BitVec.ofNat 64 (i * 8 % 2 ^ 32)))
    obtain ⟨posts, last, looped, length, each⟩ :=
      @ih { cpu with sendMB := cpu.sendMB ++ [post] } { harness with privTag := tag } (i + 1)
    refine ⟨post :: posts, last, ?_, congrArg (· + 1) length, ?_⟩
    · rw [PanCPU.testLoop, pushed]
      refine looped.trans ?_
      rw [List.append_assoc]
      rfl
    · intro other member
      rcases List.mem_cons.mp member with first | later
      · rw [first]
        exact made
      · exact each other later

/-- The token of the harness is the one that the first stage sets. -/
def Harness.Armed (harness : Harness) : Prop :=
  harness.testStage ≠ 0 → harness.lToken.setWidth 32 = testToken

theorem stageLength_loop {testIters stage : Nat} (first : 0 < stage) (last : stage < 9) :
    stageLength testIters stage = testIters := by
  rw [stageLength]
  · exact if_pos last
  all_goals omega

theorem stageLength_past {testIters stage : Nat} (past : maxPanTest ≤ stage) :
    stageLength testIters stage = 0 := by
  unfold maxPanTest at past
  rw [stageLength]
  · exact if_neg (by omega)
  all_goals omega

theorem testLoop_tested {build : BitVec 64 → PanNicEvent → BitVec 32 → BitVec 8 → PanNicEvent}
    (armed : harness.Armed) (first : 0 < harness.testStage) (behind : harness.testStage < 9)
    (builds : ∀ addr, Builds (stageOpcode harness.testStage) (build addr)) :
    ∃ posts, Tested cpu harness posts (PanCPU.testLoop build cpu harness 0 harness.testIters).1
      (PanCPU.testLoop build cpu harness 0 harness.testIters).2.next := by
  obtain ⟨posts, tag, looped, length, each⟩ := @testLoop_made cpu harness _ _ builds 0 harness.testIters
  have inside : harness.testStage < maxPanTest := Nat.lt_trans behind (by decide)
  rw [armed first.ne'] at each
  rw [looped]
  refine ⟨posts, rfl, length.trans (stageLength_loop first behind).symm, each, ?_, rfl, armed first.ne'⟩
  rw [if_pos inside]
  rfl

theorem putStage_tested (armed : harness.Armed) (first : 0 < harness.testStage)
    (behind : harness.testStage < 9) (ran : Except.ok (cpu.testPuts harness fun event token tag =>
      event.buildPut token tag (stageOpcode harness.testStage)) = (.ok (after, last) : Except PanFault _)) :
    ∃ posts, Tested cpu harness posts after last := by
  cases ran
  exact testLoop_tested armed first behind fun addr => buildPut_builds _ addr 8 _

theorem getStage_tested (armed : harness.Armed) (first : 0 < harness.testStage)
    (behind : harness.testStage < 9) (ran : Except.ok (cpu.testGets harness fun event token tag =>
      event.buildGet token tag (stageOpcode harness.testStage)) = (.ok (after, last) : Except PanFault _)) :
    ∃ posts, Tested cpu harness posts after last := by
  cases ran
  exact testLoop_tested armed first behind fun addr => buildGet_builds _ addr 8

theorem testPush_tested {build : PanNicEvent → BitVec 32 → BitVec 8 → PanNicEvent}
    (inside : harness.testStage < maxPanTest) (alone : stageLength harness.testIters harness.testStage = 1)
    (builds : Builds (stageOpcode harness.testStage) build) {armed : Harness}
    (stage : armed.testStage = harness.testStage) (iters : armed.testIters = harness.testIters)
    (token : armed.lToken.setWidth 32 = testToken) :
    ∃ posts, Tested cpu harness posts (cpu.testPush armed build).1 (cpu.testPush armed build).2.next := by
  obtain ⟨post, tag, pushed, made⟩ := @testPush_made cpu armed _ _ builds
  rw [token] at made
  rw [pushed]
  refine ⟨[post], rfl, alone.symm, ?_, ?_, iters, token⟩
  · intro other member
    rw [List.mem_singleton.mp member]
    exact made
  · rw [if_pos inside, ← stage]
    rfl

theorem testCompletion_tested (armed : harness.Armed) (nine : harness.testStage = 9)
    (ran : cpu.testCompletion harness = .ok (after, last)) :
    ∃ posts, Tested cpu harness posts after last := by
  obtain ⟨post, tag, pushed, made⟩ := @testPush_made cpu harness.next _ _
    (buildPut_builds .SyncPut (BitVec.ofNat 64 completionAddr) 8 fun _ => testBuf)
  have token : harness.lToken.setWidth 32 = testToken := armed (by omega)
  have inside : harness.testStage < maxPanTest := nine ▸ by decide
  rw [show harness.next.lToken.setWidth 32 = testToken from token] at made
  rw [PanCPU.testCompletion] at ran
  dsimp only [PanNicEvent.buildSyncPut] at ran
  rw [pushed] at ran
  dsimp only at ran
  split at ran
  · cases ran
  · cases ran
    refine ⟨[post], rfl, ?_, ?_, ?_, rfl, token⟩
    · rw [nine]
      rfl
    · intro other member
      rw [List.mem_singleton.mp member, nine]
      exact made
    · rw [if_pos inside]
      rfl

/-- Every call of ExecPANTest waits for the responses to what was sent, or is a stage. -/
theorem execPANTest_tested (armed : harness.Armed) (ran : cpu.execPANTest harness = .ok (after, last)) :
    (cpu.trackTags ≠ [] ∧ after = cpu ∧ last = harness) ∨
      cpu.trackTags = [] ∧ ∃ posts, Tested cpu harness posts after last := by
  rw [PanCPU.execPANTest] at ran
  split_ifs at ran with outstanding
  · cases ran
    exact .inl ⟨outstanding, rfl, rfl⟩
  · refine .inr ⟨not_not.mp outstanding, ?_⟩
    split at ran
    case h_1 zero =>
      cases ran
      refine testPush_tested (zero ▸ by decide) (by rw [zero]; rfl) ?_ rfl rfl rfl
      rw [zero]
      exact fun event token tag => ⟨rfl, rfl, rfl⟩
    case h_2 stage => exact putStage_tested armed (by omega) (by omega) (by rw [stage]; exact ran)
    case h_3 stage => exact getStage_tested armed (by omega) (by omega) (by rw [stage]; exact ran)
    case h_4 stage => exact putStage_tested armed (by omega) (by omega) (by rw [stage]; exact ran)
    case h_5 stage => exact getStage_tested armed (by omega) (by omega) (by rw [stage]; exact ran)
    case h_6 stage => exact putStage_tested armed (by omega) (by omega) (by rw [stage]; exact ran)
    case h_7 stage => exact getStage_tested armed (by omega) (by omega) (by rw [stage]; exact ran)
    case h_8 stage => exact putStage_tested armed (by omega) (by omega) (by rw [stage]; exact ran)
    case h_9 stage => exact getStage_tested armed (by omega) (by omega) (by rw [stage]; exact ran)
    case h_10 nine => exact testCompletion_tested armed nine ran
    case h_11 ten =>
      cases ran
      refine testPush_tested (ten ▸ by decide) (by rw [ten]; rfl) ?_ rfl rfl (armed (by omega))
      rw [ten]
      exact fun event token tag => ⟨rfl, rfl, rfl⟩
    case h_12 =>
      cases ran
      have past : maxPanTest ≤ harness.testStage := by grind [maxPanTest]
      refine ⟨[], ?_, (stageLength_past past).symm, ?_, ?_, rfl, armed ?_⟩
      · rw [List.append_nil]
      · exact fun _ member => absurd member List.not_mem_nil
      · rw [if_neg (Nat.not_lt.mpr past)]
      · exact Nat.ne_of_gt (Nat.lt_of_lt_of_le (by decide) past)

end Stages

end RevCPU.Pan
