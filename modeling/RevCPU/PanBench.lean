import RevCPU.PanSystem
/-!
The test harness against one device. The packets between two CPUs arrive in the order in which they were
sent, and no program posts a command. The stages follow one another as the script has them, and the device
refuses none of their requests.
-/
namespace RevCPU.Pan
open Mem

/-- The opcodes of the packets that the stages before `stage` post. -/
def script (testIters stage : Nat) : List PanOpcode :=
  (List.range stage).flatMap fun done => List.replicate (stageLength testIters done) (stageOpcode done)

def opcodes (posts : List (PanNicEvent × Int)) : List PanOpcode := posts.map fun post => post.1.opcode

section Script
variable {testIters stage : Nat} {handled rest : List PanOpcode} {opcode : PanOpcode}

theorem script_succ (testIters stage : Nat) : script testIters (stage + 1) =
    script testIters stage ++ List.replicate (stageLength testIters stage) (stageOpcode stage) := by
  rw [script, List.range_succ, List.flatMap_append]
  exact congrArg _ (List.append_nil _)

theorem length_script_loops (testIters : Nat) {stage : Nat} (loops : stage ≤ 8) :
    (script testIters (stage + 1)).length = 1 + stage * testIters := by
  induction stage with
  | zero =>
    rw [Nat.zero_mul]
    rfl
  | succ stage ih =>
    rw [script_succ, List.length_append, ih (by omega), List.length_replicate,
      stageLength_loop (Nat.succ_pos stage) (by omega), Nat.add_assoc, Nat.succ_mul]

theorem length_script (testIters : Nat) : (script testIters maxPanTest).length = 8 * testIters + 3 := by
  have loops := length_script_loops testIters (Nat.le_refl 8)
  rw [maxPanTest, script_succ, script_succ, List.length_append, List.length_append, loops]
  simp only [List.length_replicate, stageLength]
  omega

theorem script_shape (first : 0 < stage) (last : stage ≤ maxPanTest) : ∃ middle,
    script testIters stage = .Reserve :: (middle ++ if stage = maxPanTest then [.Revoke] else []) ∧
      ∀ opcode ∈ middle, opcode ≠ .Reserve ∧ opcode ≠ .Revoke := by
  have early : ∀ stage < 10, ∃ middle, script testIters (stage + 1) = .Reserve :: middle ∧
      ∀ opcode ∈ middle, opcode ≠ PanOpcode.Reserve ∧ opcode ≠ .Revoke := by
    intro stage inside
    induction stage with
    | zero => exact ⟨[], rfl, fun _ member => absurd member List.not_mem_nil⟩
    | succ stage ih =>
      obtain ⟨middle, same, others⟩ := ih (by omega)
      refine ⟨middle ++ List.replicate (stageLength testIters (stage + 1)) (stageOpcode (stage + 1)), ?_, ?_⟩
      · rw [script_succ, same]
        rfl
      · intro opcode member
        rcases List.mem_append.mp member with old | new
        · exact others opcode old
        · rw [List.eq_of_mem_replicate new]
          have bound : stage < 9 := by omega
          interval_cases stage <;> exact ⟨nofun, nofun⟩
  by_cases ended : stage = maxPanTest
  · obtain ⟨middle, same, others⟩ := early 9 (by decide)
    refine ⟨middle, ?_, others⟩
    rw [if_pos ended, ended, maxPanTest, script_succ, same]
    rfl
  · have inside : stage - 1 < 10 := by
      unfold maxPanTest at last ended
      omega
    obtain ⟨middle, same, others⟩ := early (stage - 1) inside
    refine ⟨middle, ?_, others⟩
    rw [if_neg ended, List.append_nil, ← same, Nat.sub_add_cancel first]

/-- The first packet is the reservation. Behind it, nothing reserves again, and nothing follows the
revocation. -/
theorem script_next (last : stage ≤ maxPanTest)
    (split : script testIters stage = handled ++ opcode :: rest) :
    (handled = [] ∧ opcode = .Reserve) ∨
      .Reserve ∈ handled ∧ .Revoke ∉ handled ∧ opcode ≠ .Reserve := by
  cases stage with
  | zero =>
    rw [script, List.range_zero] at split
    exact absurd split.symm (List.append_ne_nil_of_right_ne_nil _ (List.cons_ne_nil _ _))
  | succ stage =>
    obtain ⟨middle, shape, others⟩ := @script_shape testIters _ (Nat.succ_pos stage) last
    rw [shape] at split
    clear shape
    cases handled with
    | nil => exact .inl ⟨rfl, (List.cons.inj split).1.symm⟩
    | cons first behind =>
      rw [List.cons_append] at split
      obtain ⟨rfl, tails⟩ := List.cons.inj split
      have inside : ∀ other ∈ behind, other ∈ middle := by
        intro other member
        rcases List.append_eq_append_iff.mp tails with ⟨more, same, tail⟩ | ⟨more, same, -⟩
        · -- At most the revocation stands behind the puts and gets.
          have none : more = [] := by
            have lengths := congrArg List.length tail
            rw [List.length_append, List.length_cons] at lengths
            have short : (if stage.succ = maxPanTest then [PanOpcode.Revoke] else []).length ≤ 1 := by
              split_ifs <;> decide
            exact List.eq_nil_of_length_eq_zero (by omega)
          rw [same, none, List.append_nil] at member
          exact member
        · rw [same]
          exact List.mem_append_left _ member
      refine .inr ⟨List.mem_cons_self .., ?_, ?_⟩
      · intro revoked
        rcases List.mem_cons.mp revoked with named | member
        · cases named
        · exact (others _ (inside _ member)).2 rfl
      · rintro rfl
        have member : PanOpcode.Reserve ∈ behind ++ .Reserve :: rest :=
          List.mem_append_right _ (List.mem_cons_self ..)
        rw [← tails] at member
        rcases List.mem_append.mp member with early | late
        · exact (others _ early).1 rfl
        · split_ifs at late
          · cases List.mem_singleton.mp late
          · cases late

end Script

section Device
variable {cpu base sent after : PanCPU} {event reply : PanNicEvent} {rand : BitVec 32} {fresh : Nat → Buffer}

/-- A request that is not refused: it is answered with success, or waits in the read queue. -/
structure Unrefused (cpu : PanCPU) (event : PanNicEvent) (after : PanCPU) : Prop where
  net : after.net = cpu.net
  posts : ∃ posts queued, after.sendMB = cpu.sendMB ++ posts ∧ after.readQueue = cpu.readQueue ++ queued ∧
    posts.length + queued.length = 1 ∧
    (∀ post ∈ posts, post.2 = event.src ∧ post.1.opcode = .Success) ∧ ∀ rqst ∈ queued, rqst.src = event.src

theorem push_unrefused (net : base.net = cpu.net) (box : base.sendMB = cpu.sendMB)
    (queue : base.readQueue = cpu.readQueue) (success : reply.opcode = .Success) :
    Unrefused cpu event (base.push reply event.src) where
  net := net
  posts := by
    refine ⟨[(reply, event.src)], [], ?_, ?_, rfl, ?_, fun _ member => absurd member List.not_mem_nil⟩
    · rw [PanCPU.push, box]
    · rw [List.append_nil]
      exact queue
    · intro post member
      rw [List.mem_singleton.mp member]
      exact ⟨rfl, success⟩

theorem raw_unrefused (net : base.net = cpu.net) (box : base.sendMB = cpu.sendMB)
    (queue : base.readQueue = cpu.readQueue) : Unrefused cpu event (base.panBuildRawSuccess event) := by
  apply push_unrefused net box queue
  rw [buildSuccess_eq]

theorem sized_unrefused (net : base.net = cpu.net) (box : base.sendMB = cpu.sendMB)
    (queue : base.readQueue = cpu.readQueue) (size : BitVec 32) :
    Unrefused cpu event (base.replySized event size) := by
  apply push_unrefused net box queue
  rw [PanCPU.panBuildBasicSuccess, buildSuccess_eq]

theorem put_unrefused {zeroAddr : Bool} (accepted : cpu.nic.checkToken event.token = true)
    (handled : cpu.panHandlePut event zeroAddr = .ok after) : Unrefused cpu event after := by
  have taken : ¬ (!cpu.nic.isHost && !cpu.nic.checkToken event.token) = true := by simp [accepted]
  rw [PanCPU.panHandlePut, if_neg taken] at handled
  split at handled
  · cases handled
  · split at handled
    · cases handled
      apply sized_unrefused <;> rfl
    · rw [PanCPU.store] at handled
      split at handled
      · cases handled
      · rename_i stored same
        split at same
        · cases same
        · cases same
          cases handled
          apply sized_unrefused <;> rfl

theorem pushRead_unrefused (pushed : cpu.pushRead event rand = .ok after) : Unrefused cpu event after := by
  rw [PanCPU.pushRead] at pushed
  cases procs : cpu.procs.head? with
  | none =>
    rw [procs] at pushed
    cases pushed
  | some core =>
    rw [procs] at pushed
    cases pushed
    refine ⟨rfl, [], [_], (List.append_nil _).symm, rfl, rfl,
      fun _ member => absurd member List.not_mem_nil, ?_⟩
    intro rqst member
    rw [List.mem_singleton.mp member]

/-- The reservation finds the device free, and every other packet of the script carries its token. -/
theorem handle_unrefused {stage : Nat} (named : event.opcode = stageOpcode stage)
    (free : event.opcode = .Reserve → cpu.nic.isReserved = false)
    (accepted : event.opcode ≠ .Reserve → cpu.nic.checkToken event.token = true)
    (handled : cpu.handleNetPANMessage event rand fresh = .ok after) : Unrefused cpu event after := by
  by_cases reserve : event.opcode = .Reserve
  · simp only [PanCPU.handleNetPANMessage, reserve, Except.ok.injEq] at handled
    rw [← handled, panHandleReserve_eq, free reserve, if_neg Bool.false_ne_true]
    apply raw_unrefused <;> rfl
  · have taken := accepted reserve
    by_cases reads : event.opcode.reads = true
    · rw [handle_reads reads taken] at handled
      exact pushRead_unrefused handled
    · rw [PanCPU.handleNetPANMessage] at handled
      rw [stageOpcode.eq_def] at named
      split at named <;> rw [named] at handled reads reserve
      case h_1 => exact absurd rfl reserve
      case h_9 =>
        cases handled
        rw [PanCPU.panHandleRevoke, taken, if_neg (by decide)]
        apply raw_unrefused <;> rfl
      all_goals first | exact put_unrefused taken handled | exact absurd rfl reads

theorem handle_ready (other : event.opcode ≠ .Revoke)
    (handled : cpu.handleNetPANMessage event rand fresh = .ok after) :
    after.readyForRevoke = cpu.readyForRevoke := by
  by_cases atOnce : event.opcode.requests = true ∧ event.opcode.reads = false
  · exact (handle_answered atOnce.1 atOnce.2 handled).ready other
  · exact (handle_calm atOnce handled).ready

end Device

section Ticks
variable {cpu after : PanCPU} {fresh : Nat → Buffer} {rqsts : List ReadRqst} {count : Nat}

theorem answerReads_success (answered : PanCPU.answerReads fresh cpu rqsts = .ok after) :
    ∃ posts, after.sendMB = cpu.sendMB ++ posts ∧ ∀ post ∈ posts, post.1.opcode = .Success := by
  induction rqsts generalizing cpu with
  | nil =>
    cases answered
    exact ⟨[], (List.append_nil _).symm, fun _ member => absurd member List.not_mem_nil⟩
  | cons rqst rest ih =>
    rw [PanCPU.answerReads] at answered
    split_ifs at answered
    · cases read : cpu.answerRead rqst (fresh rest.length) with
      | error fault =>
        rw [read] at answered
        cases answered
      | ok next =>
        rw [read] at answered
        obtain ⟨posts, pushed, success⟩ := ih answered
        rw [PanCPU.answerRead] at read
        split at read
        · cases read
        · cases read
          refine ⟨_ :: posts, pushed.trans (List.append_assoc ..), List.forall_mem_cons.mpr ⟨?_, success⟩⟩
          exact (readReply_fields cpu rqst _).2
    · exact ih answered

theorem processPANMemRead_success (read : cpu.processPANMemRead fresh = .ok after) :
    ∃ posts, after.sendMB = cpu.sendMB ++ posts ∧ ∀ post ∈ posts, post.1.opcode = .Success := by
  rw [PanCPU.processPANMemRead] at read
  split at read
  · cases read
  · rename_i next answered
    cases read
    obtain ⟨posts, pushed, success⟩ := answerReads_success answered
    exact ⟨posts, pushed, success⟩

theorem sendMessages_nic (sent : cpu.sendMessages count = .ok after) :
    after.nic.isHost = cpu.nic.isHost ∧ (cpu.readyForRevoke = false → after.nic = cpu.nic) := by
  induction count generalizing cpu with
  | zero =>
    cases sent
    exact ⟨rfl, fun _ => rfl⟩
  | succ count ih =>
    obtain ⟨middle, first, rest⟩ := bind_inv sent
    have one := sendPANMessage_sent first
    obtain ⟨isHost, nic⟩ := ih rest
    refine ⟨isHost.trans one.isHost, fun calm => ?_⟩
    by_cases empty : cpu.sendMB = []
    · rw [one.idle empty] at nic
      exact nic calm
    · obtain ⟨-, ready, same⟩ := one.moved empty
      rw [nic ready, same, calm, if_neg Bool.false_ne_true]

/-- A tick of clockTick whose scan of the mailbox finds nothing. -/
structure Ticked (cpu after : PanCPU) (replies moved : List (PanNicEvent × Int)) : Prop where
  exchange : Exchange cpu after [] replies moved
  success : ∀ post ∈ replies, post.1.opcode = .Success ∧ ∃ rqst ∈ cpu.readQueue, post.2 = rqst.src
  length : replies.length + after.readQueue.length = cpu.readQueue.length
  queue : ∀ rqst ∈ after.readQueue, ∃ before ∈ cpu.readQueue, rqst.src = before.src
  isHost : after.nic.isHost = cpu.nic.isHost
  calm : cpu.readyForRevoke = false → after.nic = cpu.nic ∧ after.readyForRevoke = false

theorem clockTick_ticked {config : ClockConfig} {node last : Node} {input : TickInput} {signal : Bool}
    (silent : ∀ scanned next, node.scanMailbox config input = .ok (scanned, next) →
      scanned.sendMB = node.cpu.sendMB)
    (ticked : node.clockTick config input = .ok (signal, last)) :
    ∃ replies moved, Ticked node.cpu last.cpu replies moved := by
  obtain ⟨-, scanned, sent, read, between⟩ := clockTick_between ticked
  obtain ⟨host, placed⟩ := between.place
  have signed := scanMailbox_signed between.scan
  have keeps := scanMailbox_keeps between.scan
  have aside := (scanMailbox_aside between.scan).same
  have placing := processPANZeroAddr_placing placed
  have whole := processPANMemRead_read between.answer
  have all := sendMessages_all between.send
  have net : scanned.net = node.cpu.net := by
    rw [aside]
  have nic : scanned.nic = node.cpu.nic := by
    rw [aside]
  have first := sendMessages_exchange between.send signed.address net signed.trackTags keeps.readQueue
    ((silent scanned _ between.scan).trans (List.append_nil _).symm)
    fun _ member => absurd member List.not_mem_nil
  obtain ⟨replies, pushed, second⟩ := first.read between.answer
  have sources : sent.readQueue = node.cpu.readQueue := all.readQueue.trans keeps.readQueue
  have each : List.Forall₂ Answers (due (sent.readQueue.map PanCPU.elapse)) replies := by
    obtain ⟨others, posted, each⟩ := whole.posted
    rw [PanCPU.posted, PanCPU.posted, whole.net, List.append_assoc, pushed] at posted
    rw [List.append_cancel_left (List.append_cancel_left posted)]
    exact each
  have same := placing.same
  obtain ⟨posts, answered, success⟩ := processPANMemRead_success between.answer
  obtain rfl := List.append_cancel_left (answered.symm.trans pushed)
  have queue : last.cpu.readQueue = left (node.cpu.readQueue.map PanCPU.elapse) := by
    rw [same, ← sources]
    exact whole.readQueue
  have nicLast : last.cpu.nic = sent.nic := by
    rw [same]
    exact whole.nic
  have nicSent := sendMessages_nic between.send
  rw [nic, keeps.ready] at nicSent
  refine ⟨posts, _, second.place placing, ?_, ?_, ?_, ?_, ?_⟩
  · intro post member
    obtain ⟨rqst, ready, reply⟩ := answered_read each post member
    obtain ⟨before, queued, rfl⟩ := List.mem_map.mp (List.mem_filter.mp ready).1
    exact ⟨success post member, before, sources ▸ queued, reply.1.trans (elapse_fields before).2⟩
  · rw [← each.length_eq, queue, sources, due, left]
    exact (List.length_eq_length_filter_add _).symm.trans (List.length_map ..)
  · intro rqst member
    rw [queue] at member
    obtain ⟨before, queued, rfl⟩ := List.mem_map.mp (List.mem_filter.mp member).1
    exact ⟨before, queued, (elapse_fields before).2⟩
  · rw [nicLast, nicSent.1]
  · intro calm
    refine ⟨by rw [nicLast, nicSent.2 calm], ?_⟩
    rw [same]
    exact whole.ready.trans (by rw [all.ready, keeps.ready, calm, Bool.false_and])

end Ticks

/-- No program posts a command, and no packet overtakes another one of its sender. -/
def System.InOrder (config : Int → ClockConfig) (system : System) : Happening → Prop
  | .tick place input => (system.member place).harness = none → ∀ scanned next,
      (system.member place).node.scanMailbox (config place) input = .ok (scanned, next) →
      scanned.sendMB = (system.cpu place).sendMB
  | .arrive index _ _ => ∀ event dest, system.flight[index]? = some (event, dest) →
      ∀ packet ∈ system.flight.take index, packet.2 = dest → packet.1.src ≠ event.src

/-- Before the first tick: the harness at `home`, and a device that nobody has reserved. -/
structure Bench (home : Int) (system : System) : Prop where
  begun : system.Begun
  apart : home ≠ testDest
  present : (system.member home).harness ≠ none
  alone : ∀ place, place ≠ home → (system.member place).harness = none
  net : ∀ place, (system.cpu place).net = []
  device : (system.cpu testDest).nic.isHost = false
  free : (system.cpu testDest).nic.isReserved = false
  ready : (system.cpu testDest).readyForRevoke = false

/-- What the harness and the device have come to. -/
structure HarnessPasses (home : Int) (system : System) : Prop where
  unrefused : ∀ post ∈ (system.cpu testDest).posted, post.1.opcode = .Success
  complete : ∀ harness, (system.member home).harness = some harness → harness.testStage = maxPanTest →
    (system.cpu home).sendMB = [] → (system.cpu home).trackTags = [] →
    (system.cpu testDest).net.length = 8 * harness.testIters + 3

structure Posting (home : Int) (harness : Harness) (cpu : PanCPU) : Prop where
  stage : harness.testStage ≤ maxPanTest
  armed : harness.Armed
  scripted : opcodes cpu.posted = script harness.testIters harness.testStage
  made : ∀ post ∈ cpu.posted, ∃ stage, Made home testToken (stageOpcode stage) post
  idle : cpu.readQueue = []

/-- The side of the device, behind the packets it has handled. -/
structure Serving (home : Int) (handled : List PanOpcode) (cpu : PanCPU) : Prop where
  device : cpu.nic.isHost = false
  free : handled = [] → cpu.nic.isReserved = false
  ready : .Revoke ∉ handled → cpu.readyForRevoke = false
  held : .Revoke ∉ handled → .Reserve ∈ handled → cpu.nic.checkToken testToken = true
  unrefused : ∀ post ∈ cpu.posted, post.2 = home ∧ post.1.opcode = .Success
  reads : ∀ rqst ∈ cpu.readQueue, rqst.src = home
  served : cpu.posted.length + cpu.readQueue.length = handled.length

/-- The network between the two: what the device has yet to handle comes in order. -/
structure Linked (home : Int) (net : List (PanNicEvent × Int)) (handled : Nat)
    (flight : List (PanNicEvent × Int)) : Prop where
  sent : handled ≤ net.length
  order : (flight.filter fun packet => packet.2 == testDest) = net.drop handled
  back : ∀ packet ∈ flight, packet.2 ≠ testDest → packet.2 = home ∧ packet.1.opcode = .Success

section Sides
variable {home : Int} {harness next : Harness} {cpu after : PanCPU} {handled : List PanOpcode}
  {posts replies moved : List (PanNicEvent × Int)}

theorem Exchange.posted (exchange : Exchange cpu after posts replies moved) :
    after.posted = cpu.posted ++ (posts ++ replies) := by
  rw [PanCPU.posted, PanCPU.posted, exchange.net, List.append_assoc, ← exchange.queue, List.append_assoc,
    List.append_assoc]

theorem Exchange.idle (exchange : Exchange cpu after posts replies moved) (idle : cpu.readQueue = []) :
    after.readQueue = [] := by
  rw [List.eq_nil_iff_forall_not_mem]
  intro rqst member
  have counted := exchange.reads rqst.src rqst.tag
  have positive : 0 < after.readQueue.countP (waits rqst.src rqst.tag) :=
    List.countP_pos_iff.mpr ⟨rqst, member, by simp [waits]⟩
  rw [idle, List.countP_nil] at counted
  omega

theorem Ticked.quiet (ticked : Ticked cpu after replies moved) (empty : cpu.sendMB = [])
    (idle : cpu.readQueue = []) : moved = [] ∧ after.sendMB = [] ∧ after.readQueue = [] := by
  have lengths := ticked.length
  rw [idle, List.length_nil, Nat.add_eq_zero_iff, List.length_eq_zero_iff, List.length_eq_zero_iff] at lengths
  have queue := ticked.exchange.queue
  rw [empty, lengths.1] at queue
  obtain ⟨sent, left⟩ := List.append_eq_nil_iff.mp queue.symm
  exact ⟨sent, left, lengths.2⟩

theorem Tested.scripted (tested : Tested cpu harness posts after next) :
    script next.testIters next.testStage = script harness.testIters harness.testStage ++ opcodes posts := by
  have added : opcodes posts =
      List.replicate (stageLength harness.testIters harness.testStage) (stageOpcode harness.testStage) := by
    rw [List.eq_replicate_iff]
    refine ⟨(List.length_map _).trans tested.length, ?_⟩
    intro opcode member
    obtain ⟨post, inside, rfl⟩ := List.mem_map.mp member
    exact (tested.made post inside).opcode
  rw [added, tested.iters, tested.stage]
  split_ifs with inside
  · exact script_succ _ _
  · rw [stageLength_past (Nat.not_lt.mp inside), List.replicate_zero, List.append_nil]

theorem posting_tick {config : ClockConfig} {node last : Node} {input : TickInput} {signal : Bool}
    (posting : Posting home harness node.cpu) (address : node.cpu.address = home)
    (ticked : node.clockTickPANTest config harness input = .ok (signal, last, next)) :
    ∃ posts moved, Exchange node.cpu last.cpu posts [] moved ∧ Posting home next last.cpu := by
  obtain ⟨tested, posts, moved, ran, armed, pushed, exchange⟩ :=
    clockTickPANTest_exchange posting.armed ticked
  refine ⟨posts, moved, exchange, ?_⟩
  have posted := exchange.posted
  rw [List.append_nil] at posted
  have idle : last.cpu.readQueue = [] := exchange.idle posting.idle
  rcases execPANTest_tested posting.armed ran with waiting | stage
  · obtain ⟨-, rfl, rfl⟩ := waiting
    have none : posts = [] := List.append_cancel_left (pushed.symm.trans (List.append_nil _).symm)
    rw [none, List.append_nil] at posted
    exact ⟨posting.stage, armed, by rw [posted, posting.scripted], by rw [posted]; exact posting.made, idle⟩
  · obtain ⟨-, others, stage⟩ := stage
    obtain rfl : posts = others := by
      rw [stage.same] at pushed
      exact (List.append_cancel_left pushed).symm
    have grown : opcodes last.cpu.posted =
        opcodes node.cpu.posted ++ opcodes posts := by
      rw [posted, opcodes, List.map_append]
      rfl
    refine ⟨?_, armed, ?_, ?_, idle⟩
    · rw [stage.stage]
      split_ifs with inside
      · exact inside
      · exact posting.stage
    · rw [grown, posting.scripted, stage.scripted]
    · intro post member
      rw [posted] at member
      rcases List.mem_append.mp member with old | new
      · exact posting.made post old
      · exact ⟨_, address ▸ stage.made post new⟩

theorem serving_tick (serving : Serving home handled cpu) (ticked : Ticked cpu after replies moved) :
    Serving home handled after := by
  have posted := ticked.exchange.posted
  rw [List.nil_append] at posted
  constructor
  · exact ticked.isHost.trans serving.device
  · intro none
    have calm := ticked.calm (serving.ready (none ▸ List.not_mem_nil))
    rw [calm.1, serving.free none]
  · exact fun unrevoked => (ticked.calm (serving.ready unrevoked)).2
  · intro unrevoked reserved
    rw [(ticked.calm (serving.ready unrevoked)).1]
    exact serving.held unrevoked reserved
  · intro post member
    rw [posted] at member
    rcases List.mem_append.mp member with old | new
    · exact serving.unrefused post old
    · obtain ⟨success, rqst, queued, dest⟩ := ticked.success post new
      exact ⟨dest.trans (serving.reads rqst queued), success⟩
  · intro rqst member
    obtain ⟨before, queued, same⟩ := ticked.queue rqst member
    exact same.trans (serving.reads before queued)
  · have lengths := ticked.length
    have served := serving.served
    rw [posted, List.length_append]
    omega

theorem serving_arrive {event : PanNicEvent} {rand : BitVec 32} {fresh : Nat → Buffer} {stage : Nat}
    (serving : Serving home handled cpu) (named : event.opcode = stageOpcode stage)
    (token : event.token = testToken) (src : event.src = home)
    (fits : (handled = [] ∧ event.opcode = .Reserve) ∨
      .Reserve ∈ handled ∧ .Revoke ∉ handled ∧ event.opcode ≠ .Reserve)
    (ran : cpu.handlePANMessage event rand fresh = .ok after) :
    Serving home (handled ++ [event.opcode]) after := by
  have net := handlePANMessage_net ran
  have delivered := handle_delivered net
  have free : event.opcode = .Reserve → cpu.nic.isReserved = false := by
    intro reserve
    rcases fits with first | later
    · exact serving.free first.1
    · exact absurd reserve later.2.2
  have granted : event.opcode ≠ .Reserve → cpu.nic.checkToken event.token = true := by
    intro other
    rw [token]
    rcases fits with first | later
    · exact absurd first.2 other
    · exact serving.held later.2.1 later.1
  have unrefused : Unrefused cpu event after := handle_unrefused named free granted net
  obtain ⟨posts, queued, pushed, waiting, one, success, sources⟩ := unrefused.posts
  have posted : after.posted = cpu.posted ++ posts := by
    rw [PanCPU.posted, PanCPU.posted, unrefused.net, pushed, List.append_assoc]
  constructor
  · exact delivered.isHost.trans serving.device
  · exact fun none => absurd none (List.append_ne_nil_of_right_ne_nil _ (List.cons_ne_nil _ _))
  · intro unrevoked
    rw [List.mem_append, List.mem_singleton, not_or] at unrevoked
    exact (handle_ready (Ne.symm unrevoked.2) net).trans (serving.ready unrevoked.1)
  · intro unrevoked reserved
    rw [List.mem_append, List.mem_singleton] at reserved
    rw [List.mem_append, not_or] at unrevoked
    by_cases reserve : event.opcode = .Reserve
    · simp only [PanCPU.handleNetPANMessage, reserve, Except.ok.injEq] at net
      rw [← net, panHandleReserve_eq, free reserve, if_neg Bool.false_ne_true, ← token]
      exact beq_self_eq_true event.token
    · rw [delivered.nic reserve]
      exact serving.held unrevoked.1 (reserved.resolve_right fun same => reserve same.symm)
  · intro post member
    rw [posted] at member
    rcases List.mem_append.mp member with old | new
    · exact serving.unrefused post old
    · exact ⟨(success post new).1.trans src, (success post new).2⟩
  · intro rqst member
    rw [waiting] at member
    rcases List.mem_append.mp member with old | new
    · exact serving.reads rqst old
    · exact (sources rqst new).trans src
  · have served := serving.served
    rw [posted, waiting, List.length_append, List.length_append, List.length_append, List.length_singleton]
    omega

end Sides

section Link
variable {home : Int} {net flight moved : List (PanNicEvent × Int)} {handled index : Nat}
  {packet : PanNicEvent × Int}

theorem Linked.ask (linked : Linked home net handled flight) (asked : ∀ post ∈ moved, post.2 = testDest) :
    Linked home (net ++ moved) handled (flight ++ moved) where
  sent := by
    have sent := linked.sent
    rw [List.length_append]
    omega
  order := by
    rw [List.filter_append, linked.order, List.drop_append_of_le_length linked.sent,
      List.filter_eq_self.mpr fun post member => beq_iff_eq.mpr (asked post member)]
  back := by
    intro post member other
    rcases List.mem_append.mp member with old | new
    · exact linked.back post old other
    · exact absurd (asked post new) other

theorem Linked.answer (linked : Linked home net handled flight) (apart : home ≠ testDest)
    (answered : ∀ post ∈ moved, post.2 = home ∧ post.1.opcode = .Success) :
    Linked home net handled (flight ++ moved) where
  sent := linked.sent
  order := by
    have none : (moved.filter fun packet => packet.2 == testDest) = [] := by
      rw [List.filter_eq_nil_iff]
      intro post member
      simp [(answered post member).1, apart]
    rw [List.filter_append, none, List.append_nil, linked.order]
  back := by
    intro post member other
    rcases List.mem_append.mp member with old | new
    · exact linked.back post old other
    · exact answered post new

theorem Linked.take (linked : Linked home net handled flight) (found : flight[index]? = some packet)
    (away : packet.2 ≠ testDest) : Linked home net handled (flight.eraseIdx index) where
  sent := linked.sent
  order := by
    obtain ⟨inside, rfl⟩ := List.getElem?_eq_some_iff.mp found
    have split := congrArg (List.filter fun packet => packet.2 == testDest)
      (List.take_append_drop index flight)
    rw [List.drop_eq_getElem_cons inside, List.filter_append,
      List.filter_cons_of_neg (by simpa using away)] at split
    rw [List.eraseIdx_eq_take_drop_succ, List.filter_append, split, linked.order]
  back := fun post member => linked.back post (List.mem_of_mem_eraseIdx member)

theorem Linked.handle (linked : Linked home net handled flight) (found : flight[index]? = some packet)
    (dest : packet.2 = testDest) (first : ∀ other ∈ flight.take index, other.2 ≠ testDest) :
    net[handled]? = some packet ∧ Linked home net (handled + 1) (flight.eraseIdx index) := by
  obtain ⟨inside, rfl⟩ := List.getElem?_eq_some_iff.mp found
  have none : ((flight.take index).filter fun packet => packet.2 == testDest) = [] := by
    rw [List.filter_eq_nil_iff]
    intro other member
    simp [first other member]
  have split := congrArg (List.filter fun packet => packet.2 == testDest)
    (List.take_append_drop index flight)
  rw [List.drop_eq_getElem_cons inside, List.filter_append, none, List.nil_append,
    List.filter_cons_of_pos (by simpa using dest), linked.order] at split
  have short : handled < net.length := by
    have lengths := congrArg List.length split
    rw [List.length_cons, List.length_drop] at lengths
    omega
  rw [List.drop_eq_getElem_cons short] at split
  obtain ⟨same, rest⟩ := List.cons.inj split
  refine ⟨by rw [List.getElem?_eq_getElem short, ← same], short, ?_, ?_⟩
  · rw [List.eraseIdx_eq_take_drop_succ, List.filter_append, none, List.nil_append, rest]
  · exact fun post member => linked.back post (List.mem_of_mem_eraseIdx member)

end Link

/-- The harness, the device and the network between them, with the packets that the device has handled. -/
structure Testing (home : Int) (system : System) (handled : Nat) : Prop where
  balanced : Balanced system
  apart : home ≠ testDest
  posting : ∃ harness, (system.member home).harness = some harness ∧
    Posting home harness (system.cpu home)
  alone : ∀ place, place ≠ home → (system.member place).harness = none
  serving : Serving home (opcodes ((system.cpu home).net.take handled)) (system.cpu testDest)
  linked : Linked home (system.cpu home).net handled system.flight
  others : ∀ place, place ≠ home → place ≠ testDest →
    (system.cpu place).sendMB = [] ∧ (system.cpu place).readQueue = []

section Runs
variable {home : Int} {system after : System} {handled : Nat} {config : Int → ClockConfig}
  {happenings : List Happening}

theorem Bench.testing (bench : Bench home system) : Testing home system 0 where
  balanced := bench.begun.balanced
  apart := bench.apart
  posting := by
    obtain ⟨harness, has⟩ := Option.ne_none_iff_exists'.mp bench.present
    have start := bench.begun.harness home harness has
    have posted : (system.cpu home).posted = [] := by
      rw [PanCPU.posted, bench.net, bench.begun.sendMB]
      rfl
    refine ⟨harness, has, start ▸ Nat.zero_le _, fun later => absurd start later, ?_, ?_,
      bench.begun.readQueue home⟩
    · rw [posted, start]
      rfl
    · rw [posted]
      exact fun _ member => absurd member List.not_mem_nil
  alone := bench.alone
  serving := by
    have posted : (system.cpu testDest).posted = [] := by
      rw [PanCPU.posted, bench.net, bench.begun.sendMB]
      rfl
    refine ⟨bench.device, fun _ => bench.free, fun _ => bench.ready, ?_, ?_, ?_, ?_⟩
    · exact fun _ member => absurd member List.not_mem_nil
    · rw [posted]
      exact fun _ member => absurd member List.not_mem_nil
    · rw [bench.begun.readQueue]
      exact fun _ member => absurd member List.not_mem_nil
    · rw [posted, bench.begun.readQueue]
      rfl
  linked := by
    rw [bench.net, bench.begun.flight]
    exact ⟨Nat.le_refl 0, rfl, fun _ member => absurd member List.not_mem_nil⟩
  others := fun place _ _ => ⟨bench.begun.sendMB place, bench.begun.readQueue place⟩

/-- What the device has handled is where the script has come to, and a packet behind it comes next. -/
theorem script_split {harness : Harness} {cpu : PanCPU} (posting : Posting home harness cpu)
    {packet : PanNicEvent × Int} (next : cpu.net[handled]? = some packet) :
    (opcodes (cpu.net.take handled) = [] ∧ packet.1.opcode = .Reserve) ∨
      .Reserve ∈ opcodes (cpu.net.take handled) ∧ .Revoke ∉ opcodes (cpu.net.take handled) ∧
        packet.1.opcode ≠ .Reserve := by
  obtain ⟨inside, rfl⟩ := List.getElem?_eq_some_iff.mp next
  have split : cpu.posted = cpu.net.take handled ++
      cpu.net[handled] :: (cpu.net.drop (handled + 1) ++ cpu.sendMB) := by
    rw [← List.cons_append, ← List.append_assoc, ← List.drop_eq_getElem_cons inside, List.take_append_drop]
    rfl
  have scripted := posting.scripted
  rw [split, opcodes, List.map_append, List.map_cons] at scripted
  exact script_next posting.stage scripted.symm

theorem Testing.asked (testing : Testing home system handled) {packet : PanNicEvent × Int}
    (member : packet ∈ system.flight) (dest : packet.2 = testDest) :
    ∃ stage, Made home testToken (stageOpcode stage) packet := by
  obtain ⟨harness, -, posting⟩ := testing.posting
  have ordered : packet ∈ (system.cpu home).net.drop handled := by
    rw [← testing.linked.order, List.mem_filter]
    exact ⟨member, beq_iff_eq.mpr dest⟩
  exact posting.made packet (List.mem_append_left _ (List.mem_of_mem_drop ordered))

theorem Testing.next (testing : Testing home system handled) {index : Nat} {event : PanNicEvent}
    (found : system.flight[index]? = some (event, testDest))
    (inOrder : ∀ packet ∈ system.flight.take index, packet.2 = testDest → packet.1.src ≠ event.src) :
    (system.cpu home).net[handled]? = some (event, testDest) ∧
      Linked home (system.cpu home).net (handled + 1) (system.flight.eraseIdx index) := by
  obtain ⟨stage, made⟩ := testing.asked (List.mem_of_getElem? found) rfl
  refine testing.linked.handle found rfl fun other member dest => ?_
  obtain ⟨earlier, before⟩ := testing.asked (List.mem_of_mem_take member) dest
  exact inOrder other member dest (before.src.trans made.src.symm)

theorem Testing.allowed (testing : Testing home system handled) {happening : Happening}
    (inOrder : system.InOrder config happening) : system.Allowed config happening := by
  cases happening with
  | tick place input =>
    intro none scanned next scan post member
    rw [inOrder none scanned next scan, List.drop_length] at member
    exact absurd member List.not_mem_nil
  | arrive index rand fresh =>
    intro event dest found get
    by_cases device : dest = testDest
    · subst device
      obtain ⟨harness, -, posting⟩ := testing.posting
      obtain ⟨stage, made⟩ := testing.asked (List.mem_of_getElem? found) rfl
      obtain ⟨next, -⟩ := testing.next found (inOrder event testDest found)
      rcases script_split posting next with first | later
      · cases get.symm.trans first.2
      · rw [made.token]
        exact .inr (testing.serving.held later.2.1 later.1)
    · cases get.symm.trans (testing.linked.back _ (List.mem_of_getElem? found) device).2

theorem cpu_self (flight : List (PanNicEvent × Int)) (place : Int) (member : Member) :
    (⟨Function.update system.member place member, flight⟩ : System).cpu place = member.node.cpu := by
  rw [cpu_update, if_pos rfl]

theorem cpu_other (flight : List (PanNicEvent × Int)) {place other : Int} (member : Member)
    (apart : other ≠ place) :
    (⟨Function.update system.member place member, flight⟩ : System).cpu other = system.cpu other := by
  rw [cpu_update, if_neg apart]

theorem Testing.tick_home (testing : Testing home system handled) {harness next : Harness} {node : Node}
    {input : TickInput} {signal : Bool} (has : (system.member home).harness = some harness)
    (ticked : (system.member home).node.clockTickPANTest (config home) harness input =
      .ok (signal, node, next))
    (balanced : Balanced ⟨Function.update system.member home ⟨node, some next⟩,
      system.flight ++ node.cpu.net.drop (system.cpu home).net.length⟩) :
    Testing home ⟨Function.update system.member home ⟨node, some next⟩,
      system.flight ++ node.cpu.net.drop (system.cpu home).net.length⟩ handled := by
  obtain ⟨other, same, posting⟩ := testing.posting
  obtain rfl := Option.some.inj (has.symm.trans same)
  obtain ⟨posts, moved, exchange, grown⟩ : ∃ posts moved,
      Exchange (system.cpu home) node.cpu posts [] moved ∧ Posting home next node.cpu :=
    posting_tick posting (testing.balanced.address home) ticked
  have asked : ∀ post ∈ moved, post.2 = testDest := by
    intro post member
    obtain ⟨stage, made⟩ := grown.made post (by
      rw [PanCPU.posted, exchange.net]
      exact List.mem_append_left _ (List.mem_append_right _ member))
    exact made.dest
  have linked := testing.linked.ask asked
  refine ⟨balanced, testing.apart, ⟨next, ?_, ?_⟩, ?_, ?_, ?_, ?_⟩
  · dsimp only
    rw [Function.update_self]
  · rw [cpu_self]
    exact grown
  · intro place apart
    dsimp only
    rw [Function.update_of_ne apart]
    exact testing.alone place apart
  · rw [cpu_self, cpu_other _ _ testing.apart.symm, exchange.net,
      List.take_append_of_le_length testing.linked.sent]
    exact testing.serving
  · rw [cpu_self, exchange.net]
    dsimp only
    rw [List.drop_left]
    exact linked
  · intro place apart away
    rw [cpu_other _ _ apart]
    exact testing.others place apart away

theorem Testing.tick_away (testing : Testing home system handled) {place : Int} (apart : place ≠ home)
    {node : Node} {replies moved : List (PanNicEvent × Int)}
    (ticked : Ticked (system.cpu place) node.cpu replies moved)
    (balanced : Balanced ⟨Function.update system.member place ⟨node, none⟩,
      system.flight ++ node.cpu.net.drop (system.cpu place).net.length⟩) :
    Testing home ⟨Function.update system.member place ⟨node, none⟩,
      system.flight ++ node.cpu.net.drop (system.cpu place).net.length⟩ handled := by
  have net := ticked.exchange.net
  have quiet : place ≠ testDest → moved = [] ∧ node.cpu.sendMB = [] ∧ node.cpu.readQueue = [] := by
    intro away
    obtain ⟨empty, idle⟩ := testing.others place apart away
    exact ticked.quiet empty idle
  have serving : place = testDest →
      Serving home (opcodes ((system.cpu home).net.take handled)) node.cpu := by
    intro device
    rw [device] at ticked
    exact serving_tick testing.serving ticked
  have returned : ∀ post ∈ moved, post.2 = home ∧ post.1.opcode = .Success := by
    intro post member
    by_cases device : place = testDest
    · apply (serving device).unrefused post
      rw [PanCPU.posted, net]
      exact List.mem_append_left _ (List.mem_append_right _ member)
    · rw [(quiet device).1] at member
      exact absurd member List.not_mem_nil
  refine ⟨balanced, testing.apart, ?_, ?_, ?_, ?_, ?_⟩
  · rw [cpu_other _ _ apart.symm]
    dsimp only
    rw [Function.update_of_ne apart.symm]
    exact testing.posting
  · intro other away
    dsimp only
    rw [Function.update_apply]
    split_ifs
    · rfl
    · exact testing.alone other away
  · rw [cpu_other _ _ apart.symm, cpu_update]
    split_ifs with device
    · exact serving device.symm
    · exact testing.serving
  · rw [cpu_other _ _ apart.symm, net, List.drop_left]
    exact testing.linked.answer testing.apart returned
  · intro other away behind
    rw [cpu_update]
    split_ifs with same
    · exact (quiet (same ▸ behind)).2
    · exact testing.others other away behind

theorem Testing.alone_arrive (testing : Testing home system handled) (dest : Int) (cpu : PanCPU) (place : Int)
    (apart : place ≠ home) :
    (Function.update system.member dest ((system.member dest).withCpu cpu) place).harness = none := by
  rw [Function.update_apply]
  split_ifs with same
  · exact same ▸ testing.alone place apart
  · exact testing.alone place apart

theorem Testing.request (testing : Testing home system handled) {index : Nat} {event : PanNicEvent}
    {rand : BitVec 32} {fresh : Nat → Buffer} {cpu : PanCPU}
    (found : system.flight[index]? = some (event, testDest))
    (inOrder : ∀ packet ∈ system.flight.take index, packet.2 = testDest → packet.1.src ≠ event.src)
    (ran : (system.cpu testDest).handlePANMessage event rand fresh = .ok cpu)
    (balanced : Balanced ⟨Function.update system.member testDest ((system.member testDest).withCpu cpu),
      system.flight.eraseIdx index⟩) :
    Testing home ⟨Function.update system.member testDest ((system.member testDest).withCpu cpu),
      system.flight.eraseIdx index⟩ (handled + 1) := by
  obtain ⟨harness, has, posting⟩ := testing.posting
  obtain ⟨next, linked⟩ := testing.next found inOrder
  obtain ⟨stage, made⟩ := testing.asked (List.mem_of_getElem? found) rfl
  have serving := serving_arrive testing.serving made.opcode made.token made.src
    (script_split posting next) ran
  have taken : opcodes ((system.cpu home).net.take (handled + 1)) =
      opcodes ((system.cpu home).net.take handled) ++ [event.opcode] := by
    rw [List.take_add_one, next, opcodes, List.map_append]
    rfl
  refine ⟨balanced, testing.apart, ⟨harness, ?_, ?_⟩, testing.alone_arrive testDest cpu, ?_, ?_, ?_⟩
  · dsimp only
    rw [Function.update_of_ne testing.apart]
    exact has
  · rw [cpu_other _ _ testing.apart]
    exact posting
  · rw [cpu_other _ _ testing.apart, cpu_self, taken]
    exact serving
  · rw [cpu_other _ _ testing.apart]
    exact linked
  · intro other away behind
    rw [cpu_other _ _ behind]
    exact testing.others other away behind

theorem Testing.response (testing : Testing home system handled) {index : Nat} {event : PanNicEvent}
    {dest : Int} {rand : BitVec 32} {fresh : Nat → Buffer} {cpu : PanCPU} (device : dest ≠ testDest)
    (found : system.flight[index]? = some (event, dest))
    (ran : (system.cpu dest).handlePANMessage event rand fresh = .ok cpu)
    (balanced : Balanced ⟨Function.update system.member dest ((system.member dest).withCpu cpu),
      system.flight.eraseIdx index⟩) :
    Testing home ⟨Function.update system.member dest ((system.member dest).withCpu cpu),
      system.flight.eraseIdx index⟩ handled := by
  obtain ⟨harness, has, posting⟩ := testing.posting
  have alone := testing.alone_arrive dest cpu
  obtain ⟨back, success⟩ := testing.linked.back _ (List.mem_of_getElem? found) device
  dsimp only at back success
  subst back
  have responds : event.opcode.responds = true := by
    rw [success]
    rfl
  have same := (handle_closed responds (handlePANMessage_net ran)).same
  have posted : cpu.posted = (system.cpu dest).posted := by
    rw [same]
    rfl
  have net : cpu.net = (system.cpu dest).net := by
    rw [same]
  refine ⟨balanced, testing.apart, ⟨harness, ?_, ?_⟩, alone, ?_, ?_, ?_⟩
  · dsimp only
    rw [Function.update_self]
    exact has
  · rw [cpu_self]
    refine ⟨posting.stage, posting.armed, ?_, ?_, ?_⟩
    · exact (congrArg opcodes posted).trans posting.scripted
    · exact posted ▸ posting.made
    · rw [same]
      exact posting.idle
  · rw [cpu_self, cpu_other _ _ testing.apart.symm]
    exact net ▸ testing.serving
  · rw [cpu_self]
    exact net ▸ testing.linked.take found device
  · intro other away behind
    rw [cpu_other _ _ away]
    exact testing.others other away behind

theorem Testing.arrive (testing : Testing home system handled) {index : Nat} {event : PanNicEvent}
    {dest : Int} {rand : BitVec 32} {fresh : Nat → Buffer} {cpu : PanCPU}
    (found : system.flight[index]? = some (event, dest))
    (inOrder : ∀ packet ∈ system.flight.take index, packet.2 = dest → packet.1.src ≠ event.src)
    (ran : (system.cpu dest).handlePANMessage event rand fresh = .ok cpu)
    (balanced : Balanced ⟨Function.update system.member dest ((system.member dest).withCpu cpu),
      system.flight.eraseIdx index⟩) :
    ∃ later, Testing home ⟨Function.update system.member dest ((system.member dest).withCpu cpu),
      system.flight.eraseIdx index⟩ later := by
  by_cases device : dest = testDest
  · subst device
    exact ⟨handled + 1, testing.request found inOrder ran balanced⟩
  · exact ⟨handled, testing.response device found ran balanced⟩

theorem Testing.step (testing : Testing home system handled) {happening : Happening}
    (inOrder : system.InOrder config happening) (stepped : system.step config happening = .ok after) :
    ∃ later, Testing home after later := by
  have balanced := step_balanced testing.balanced (testing.allowed inOrder) stepped
  rcases System.step_cases stepped with ⟨place, input, signal, node, rfl, has, ran, rfl⟩ |
    ⟨place, input, signal, node, harness, next, rfl, has, ran, rfl⟩ | ⟨index, rand, fresh, rfl, -, rfl⟩ |
    ⟨index, rand, fresh, event, dest, cpu, rfl, found, ran, rfl⟩
  · have apart : place ≠ home := by
      intro same
      obtain ⟨harness, other, -⟩ := testing.posting
      rw [same, other] at has
      cases has
    obtain ⟨replies, moved, ticked⟩ := clockTick_ticked (inOrder has) ran
    exact ⟨handled, testing.tick_away apart ticked balanced⟩
  · have same : place = home := by
      by_contra apart
      rw [testing.alone place apart] at has
      cases has
    subst same
    exact ⟨handled, testing.tick_home has ran balanced⟩
  · exact ⟨handled, testing⟩
  · exact testing.arrive found (inOrder event dest found) ran balanced

theorem Testing.run (testing : Testing home system handled)
    (orderly : system.Orderly config (System.InOrder config) happenings)
    (ran : system.run config happenings = .ok after) : ∃ later, Testing home after later := by
  induction happenings generalizing system handled with
  | nil =>
    cases ran
    exact ⟨handled, testing⟩
  | cons happening rest ih =>
    rw [System.run] at ran
    cases stepped : system.step config happening with
    | error fault =>
      rw [stepped] at ran
      cases ran
    | ok next =>
      rw [stepped] at ran
      obtain ⟨later, testing⟩ := testing.step orderly.1 stepped
      exact ih testing (orderly.2 next stepped) ran

/-- Where the harness waits for nothing, nothing is left of its requests or of their responses. -/
theorem Testing.rest (testing : Testing home system handled) (sent : (system.cpu home).sendMB = [])
    (answered : (system.cpu home).trackTags = []) :
    (system.cpu testDest).net.length = (system.cpu home).posted.length := by
  have none : ∀ tag, system.underWay home testDest tag = 0 := by
    intro tag
    rw [← testing.balanced.tracked, answered]
    rfl
  have asked : ∀ packet ∈ system.flight, packet.2 ≠ testDest := by
    intro packet member dest
    obtain ⟨stage, made⟩ := testing.asked member dest
    have asking : asks home testDest packet.1.tag packet = true := by
      simp [asks, made.src, dest, made.opcode, stageOpcode_requests]
    have positive := List.countP_pos_iff.mpr ⟨packet, member, asking⟩
    have zero := none packet.1.tag
    rw [System.underWay] at zero
    omega
  have handledAll : handled = (system.cpu home).net.length := by
    have order := testing.linked.order
    rw [List.filter_eq_nil_iff.mpr fun packet member => by simpa using asked packet member] at order
    exact Nat.le_antisymm testing.linked.sent (List.drop_eq_nil_iff.mp order.symm)
  have posted : (system.cpu testDest).sendMB = [] := by
    rw [List.eq_nil_iff_forall_not_mem]
    intro post member
    have unrefused := testing.serving.unrefused post (List.mem_append_right _ member)
    have answering : answers home testDest post.1.tag post = true := by
      simp [answers, unrefused.1, unrefused.2, testing.balanced.signed testDest post member,
        PanOpcode.responds]
    have positive := List.countP_pos_iff.mpr ⟨post, member, answering⟩
    have zero := none post.1.tag
    rw [System.underWay, owed] at zero
    omega
  have read : (system.cpu testDest).readQueue = [] := by
    rw [List.eq_nil_iff_forall_not_mem]
    intro rqst member
    have waiting : waits home rqst.tag rqst = true := by
      simp [waits, testing.serving.reads rqst member]
    have positive := List.countP_pos_iff.mpr ⟨rqst, member, waiting⟩
    have zero := none rqst.tag
    rw [System.underWay, owed] at zero
    omega
  have served := testing.serving.served
  rw [PanCPU.posted, posted, read, List.append_nil, opcodes, List.length_map, List.length_take, handledAll,
    Nat.min_self] at served
  rw [PanCPU.posted, sent, List.append_nil]
  exact served

end Runs

section Examples

theorem bench_ready : Bench 0 bench where
  begun := bench_begun
  apart := by decide
  present := nofun
  alone := by
    intro place apart
    dsimp only [bench]
    rw [if_neg apart]
  net := by
    intro place
    dsimp only [bench, System.cpu]
    split_ifs <;> rfl
  device := rfl
  free := rfl
  ready := rfl

end Examples
end RevCPU.Pan
