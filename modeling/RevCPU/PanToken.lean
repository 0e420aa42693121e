import RevCPU.PanPairing
/-!
The reservation token of a device over any interleaving of packets, whoever sends them. A request has
an effect where the memory, the cores, the execution queue or one of the two queues of accesses still
to be made is another one behind its handler, or where its answer is more than the failure; a
revocation waits for the next packet that is sent.
-/
namespace RevCPU.Pan
open Mem

def run (cpu : PanCPU) : List Input → Except PanFault PanCPU
  | [] => .ok cpu
  | input :: rest =>
    match step cpu input with
    | .error fault => .error fault
    | .ok after => run after rest

/-- Nothing that a request reads or changes is reached by the step. The packet that goes back is a
failure with the token and the tag of the request, and nothing of the state is in it. -/
structure Ineffective (cpu after : PanCPU) (event : PanNicEvent) : Prop where
  mem : after.mem = cpu.mem
  procs : after.procs = cpu.procs
  pExec : after.pExec = cpu.pExec
  readQueue : after.readQueue = cpu.readQueue
  zeroRqst : after.zeroRqst = cpu.zeroRqst
  nic : after.nic = cpu.nic
  readyForRevoke : after.readyForRevoke = cpu.readyForRevoke
  posted : after.posted = cpu.posted ++
    [({ PanNicEvent.new with
          src := cpu.address, opcode := .Failed, token := event.token, tag := event.tag, size := 0 },
      event.src)]

/-- The token was reserved by a Reserve of the run, at a time when none was. -/
def Renewed (cpu : PanCPU) (inputs : List Input) (token : BitVec 32) : Prop :=
  ∃ before event rand fresh rest middle, inputs = before ++ .deliver event rand fresh :: rest ∧
    event.opcode = .Reserve ∧ event.token = token ∧ run cpu before = .ok middle ∧
    middle.nic.isReserved = false

/-- The calls of processPANMemRead in a run. -/
def ticks (inputs : List Input) : Nat :=
  inputs.countP fun input => match input with
    | .read _ => true
    | _ => false

/-- What the token promises of a run. A Revoke that is accepted at `cpu` posts its response behind the
packets that are there, so the response is sent once the network has more packets than that. -/
structure TokenSafe (start : PanCPU) (inputs : List Input) : Prop where
  guarded : ∀ before event rand fresh rest cpu after,
    inputs = before ++ .deliver event rand fresh :: rest → run start before = .ok cpu →
    step cpu (.deliver event rand fresh) = .ok after → event.opcode.requests = true →
    event.opcode ≠ .Reserve → cpu.nic.checkToken event.token = false → Ineffective cpu after event
  reserved : ∀ before event rand fresh rest cpu,
    inputs = before ++ .deliver event rand fresh :: rest → run start before = .ok cpu →
    event.opcode = .Reserve → ∃ after reply, step cpu (.deliver event rand fresh) = .ok after ∧
      after.posted = cpu.posted ++ [(reply, event.src)] ∧
      (reply.opcode = .Success ↔ cpu.nic.isReserved = false)
  revoked : ∀ before event rand fresh middle rest cpu after later,
    inputs = before ++ .deliver event rand fresh :: (middle ++ rest) → run start before = .ok cpu →
    event.opcode = .Revoke → cpu.nic.checkToken event.token = true →
    step cpu (.deliver event rand fresh) = .ok after → run after middle = .ok later →
    cpu.posted.length < later.net.length → later.nic.isReserved = true →
    Renewed after middle later.nic.token
  answered : ∀ before middle rest cpu later rqst, inputs = before ++ (middle ++ rest) →
    run start before = .ok cpu → rqst ∈ cpu.readQueue → run cpu middle = .ok later →
    max 1 rqst.cost.toNat ≤ ticks middle →
    ∃ post ∈ later.posted.drop cpu.posted.length, Answers rqst post

/-- Every SyncGet of the run carries the token that is reserved when it arrives. -/
def Careful (cpu : PanCPU) : List Input → Prop
  | [] => True
  | input :: rest =>
    (∀ event rand fresh, input = .deliver event rand fresh → event.opcode = .SyncGet →
      cpu.procs ≠ [] → cpu.nic.checkToken event.token = true) ∧
    ∀ after, step cpu input = .ok after → Careful after rest

section Frame
variable {cpu after : PanCPU} {event : PanNicEvent} {rand : BitVec 32} {fresh : Nat → Buffer}

/-- What the handler of any packet leaves of the mailbox, the queue and the reservation. -/
structure Delivered (cpu : PanCPU) (event : PanNicEvent) (after : PanCPU) : Prop where
  posted : ∃ more, after.posted = cpu.posted ++ more
  readQueue : ∃ more, after.readQueue = cpu.readQueue ++ more
  net : after.net = cpu.net
  isHost : after.nic.isHost = cpu.nic.isHost
  nic : event.opcode ≠ .Reserve → after.nic = cpu.nic
  ready : cpu.readyForRevoke = true → after.readyForRevoke = true

theorem Answered.delivered (answered : Answered cpu event after)
    (ready : event.opcode = .Revoke → cpu.readyForRevoke = true → after.readyForRevoke = true) :
    Delivered cpu event after := by
  obtain ⟨reply, posted, -⟩ := answered.posted
  constructor
  · exact ⟨_, posted⟩
  · exact ⟨[], by rw [answered.readQueue, List.append_nil]⟩
  · exact answered.net
  · exact answered.isHost
  · exact answered.nic
  · intro waits
    by_cases revoke : event.opcode = .Revoke
    · exact ready revoke waits
    · rw [answered.ready revoke, waits]

theorem panHandleRevoke_ready (waits : cpu.readyForRevoke = true) :
    (cpu.panHandleRevoke event).readyForRevoke = true := by
  rw [PanCPU.panHandleRevoke]
  split
  · exact waits
  · rfl

theorem pushRead_delivered (base : PanCPU) (posted : ∃ more, base.posted = cpu.posted ++ more)
    (readQueue : base.readQueue = cpu.readQueue) (net : base.net = cpu.net)
    (nic : base.nic = cpu.nic) (ready : base.readyForRevoke = cpu.readyForRevoke)
    (pushed : base.pushRead event rand = .ok after) : Delivered cpu event after := by
  rw [PanCPU.pushRead] at pushed
  split at pushed
  · cases pushed
  · cases pushed
    constructor
    · exact posted
    · exact ⟨_, by rw [readQueue]⟩
    · exact net
    · exact congrArg PanNicAPI.isHost nic
    · exact fun _ => nic
    · exact fun waits => ready.trans waits

theorem panHandleSyncGet_delivered (handled : cpu.panHandleSyncGet event rand = .ok after) :
    Delivered cpu event after := by
  rw [PanCPU.panHandleSyncGet] at handled
  split at handled
  · exact pushRead_delivered (cpu.panBuildFailedToken event) ⟨_, (List.append_assoc ..).symm⟩
      rfl rfl rfl rfl handled
  · exact pushRead_delivered cpu ⟨[], (List.append_nil _).symm⟩ rfl rfl rfl rfl handled

theorem panHandleGet_delivered (other : event.opcode ≠ .Revoke)
    (handled : cpu.panHandleGet event rand = .ok after) : Delivered cpu event after := by
  rw [PanCPU.panHandleGet] at handled
  split at handled
  · cases handled
    exact (failed_answered .refl).delivered fun named => absurd named other
  · exact pushRead_delivered cpu ⟨[], (List.append_nil _).symm⟩ rfl rfl rfl rfl handled

theorem closeTag_delivered {mem : RevMem} {gets : List TrackGet} {sig : BitVec 64}
    {fresh : Nat → Buffer}
    (closed : { cpu with mem := mem, trackGets := gets }.closeTag event sig fresh = .ok after) :
    Delivered cpu event after := by
  rw [PanCPU.closeTag, PanCPU.panSignalMsgRecv] at closed
  dsimp only at closed
  split at closed
  · cases closed
  · rename_i signalled
    split at signalled
    · cases signalled
    · cases signalled
      cases closed
      exact ⟨⟨[], (List.append_nil _).symm⟩, ⟨[], (List.append_nil _).symm⟩, rfl, rfl, fun _ => rfl,
        fun waits => waits⟩

theorem response_delivered (responds : event.opcode.responds = true)
    (handled : cpu.handleNetPANMessage event rand fresh = .ok after) : Delivered cpu event after := by
  rw [PanCPU.handleNetPANMessage] at handled
  rcases Bool.or_eq_true_iff.mp responds with success | failed
  · rw [beq_iff_eq.mp success] at handled
    dsimp only [PanCPU.panHandleSuccess] at handled
    split at handled
    · cases handled
    · split at handled
      · cases handled
      · exact closeTag_delivered handled
  · rw [beq_iff_eq.mp failed] at handled
    dsimp only [PanCPU.panHandleFailed] at handled
    split at handled
    · cases handled
    · exact closeTag_delivered handled

theorem handle_delivered (handled : cpu.handleNetPANMessage event rand fresh = .ok after) :
    Delivered cpu event after := by
  by_cases responds : event.opcode.responds = true
  · exact response_delivered responds handled
  · by_cases reads : event.opcode.reads = true
    · rw [PanCPU.handleNetPANMessage] at handled
      cases named : event.opcode <;> simp only [named] at reads handled
      case SyncGet => exact panHandleSyncGet_delivered handled
      case AsyncGet => exact panHandleGet_delivered (by simp [named]) handled
      case SyncStreamGet => exact panHandleGet_delivered (by simp [named]) handled
      case AsyncStreamGet => exact panHandleGet_delivered (by simp [named]) handled
      all_goals exact absurd reads (by decide)
    · by_cases unknown : event.opcode = .PanRsvd
      · simp [PanCPU.handleNetPANMessage, unknown] at handled
      · have request : event.opcode.requests = true := by
          simp [PanOpcode.requests, responds, unknown]
        refine (handle_answered request (by simpa using reads) handled).delivered ?_
        intro revoke waits
        simp only [PanCPU.handleNetPANMessage, revoke, Except.ok.injEq] at handled
        rw [← handled]
        exact panHandleRevoke_ready waits

end Frame

section Steps
variable {cpu after later : PanCPU} {input : Input} {inputs : List Input}

theorem step_posted (stepped : step cpu input = .ok after) :
    (∃ more, after.posted = cpu.posted ++ more) ∧ after.nic.isHost = cpu.nic.isHost := by
  cases input with
  | deliver event rand fresh =>
    have delivered := handle_delivered stepped
    exact ⟨delivered.posted, delivered.isHost⟩
  | send =>
    have sent := sendPANMessage_sent stepped
    exact ⟨⟨[], by rw [sent.posted, List.append_nil]⟩, sent.isHost⟩
  | read fresh =>
    have read := processPANMemRead_read stepped
    obtain ⟨replies, posted, -⟩ := read.posted
    exact ⟨⟨replies, posted⟩, by rw [read.nic]⟩
  | post event dest =>
    cases stepped
    exact ⟨⟨[(event, dest)], (List.append_assoc ..).symm⟩, rfl⟩
  | outside mem procs exec zeroRqst =>
    cases stepped
    exact ⟨⟨[], (List.append_nil _).symm⟩, rfl⟩

theorem run_posted (ran : run cpu inputs = .ok later) :
    (∃ more, later.posted = cpu.posted ++ more) ∧ later.nic.isHost = cpu.nic.isHost := by
  induction inputs generalizing cpu with
  | nil =>
    cases ran
    exact ⟨⟨[], (List.append_nil _).symm⟩, rfl⟩
  | cons input rest ih =>
    rw [run] at ran
    split at ran
    · cases ran
    · rename_i after stepped
      obtain ⟨⟨one, first⟩, host⟩ := step_posted stepped
      obtain ⟨⟨two, second⟩, same⟩ := ih ran
      exact ⟨⟨one ++ two, by rw [second, first, List.append_assoc]⟩, same.trans host⟩

theorem step_nic (stepped : step cpu input = .ok after) :
    after.nic = cpu.nic ∨ after.nic.isReserved = false ∨
      ∃ event rand fresh, input = .deliver event rand fresh ∧ event.opcode = .Reserve ∧
        event.token = after.nic.token ∧ cpu.nic.isReserved = false := by
  cases input with
  | deliver event rand fresh =>
    by_cases reserve : event.opcode = .Reserve
    · simp only [step, PanCPU.handleNetPANMessage, reserve, Except.ok.injEq] at stepped
      rw [panHandleReserve_eq] at stepped
      split at stepped
      · subst stepped
        exact .inl rfl
      · rename_i free
        subst stepped
        exact .inr (.inr ⟨event, rand, fresh, rfl, reserve, rfl, by simpa using free⟩)
    · exact .inl ((handle_delivered stepped).nic reserve)
  | send =>
    have sent := sendPANMessage_sent stepped
    by_cases empty : cpu.sendMB = []
    · exact .inl (by rw [sent.idle empty])
    · have nic := (sent.moved empty).2.2
      split_ifs at nic
      · exact .inr (.inl (by rw [nic]; rfl))
      · exact .inl nic
  | read fresh => exact .inl (processPANMemRead_read stepped).nic
  | post event dest =>
    cases stepped
    exact .inl rfl
  | outside mem procs exec zeroRqst =>
    cases stepped
    exact .inl rfl

theorem Renewed.cons {token : BitVec 32} (renewed : Renewed after inputs token)
    (stepped : step cpu input = .ok after) : Renewed cpu (input :: inputs) token := by
  obtain ⟨before, event, rand, fresh, rest, middle, split, reserve, same, ran, free⟩ := renewed
  refine ⟨input :: before, event, rand, fresh, rest, middle, ?_, reserve, same, ?_, free⟩
  · rw [split]
    rfl
  · rw [run, stepped]
    exact ran

/-- A reservation at the end of a run is the one at its start, or made on the way. -/
theorem run_reserved (ran : run cpu inputs = .ok later) (reserved : later.nic.isReserved = true) :
    later.nic = cpu.nic ∨ Renewed cpu inputs later.nic.token := by
  induction inputs generalizing cpu with
  | nil =>
    cases ran
    exact .inl rfl
  | cons input rest ih =>
    rw [run] at ran
    split at ran
    · cases ran
    · rename_i after stepped
      rcases ih ran with same | renewed
      · rcases step_nic stepped with kept | ended | ⟨event, rand, fresh, named, reserve, token, free⟩
        · exact .inl (same.trans kept)
        · rw [same, ended] at reserved
          exact absurd reserved (by simp)
        · subst named
          rw [same]
          exact .inr ⟨[], event, rand, fresh, rest, cpu, rfl, reserve, token, rfl, free⟩
      · exact .inr (renewed.cons stepped)

/-- While a revocation waits no packet is sent, and the next one that is sent ends the reservation. -/
theorem run_revoked {answer : Nat} (waits : cpu.readyForRevoke = true)
    (reserved : cpu.nic.isReserved = true) (unsent : cpu.net.length ≤ answer)
    (inside : answer < cpu.posted.length) (ran : run cpu inputs = .ok later)
    (sent : answer < later.net.length) (again : later.nic.isReserved = true) :
    Renewed cpu inputs later.nic.token := by
  induction inputs generalizing cpu with
  | nil =>
    cases ran
    omega
  | cons input rest ih =>
    rw [run] at ran
    split at ran
    · cases ran
    · rename_i after stepped
      obtain ⟨more, grown⟩ := (step_posted stepped).1
      have still : answer < after.posted.length := by
        rw [grown, List.length_append]
        omega
      by_cases sends : input = .send
      · subst sends
        have moved := sendPANMessage_sent stepped
        have filled : cpu.sendMB ≠ [] := by
          intro empty
          rw [PanCPU.posted, empty, List.append_nil] at inside
          omega
        have nic := (moved.moved filled).2.2
        rw [if_pos waits] at nic
        rcases run_reserved ran again with same | renewed
        · rw [same, nic] at again
          exact absurd again (by simp [PanNicAPI.revokeToken])
        · exact renewed.cons stepped
      · have kept : after.net = cpu.net ∧ after.readyForRevoke = true ∧ after.nic = cpu.nic := by
          cases input with
          | deliver event rand fresh =>
            have delivered := handle_delivered stepped
            refine ⟨delivered.net, delivered.ready waits, ?_⟩
            by_cases reserve : event.opcode = .Reserve
            · simp only [step, PanCPU.handleNetPANMessage, reserve, Except.ok.injEq] at stepped
              rw [panHandleReserve_eq, if_pos reserved] at stepped
              rw [← stepped]
              rfl
            · exact delivered.nic reserve
          | send => exact absurd rfl sends
          | read fresh =>
            have read := processPANMemRead_read stepped
            exact ⟨read.net, read.ready.trans waits, read.nic⟩
          | post event dest =>
            cases stepped
            exact ⟨rfl, waits, rfl⟩
          | outside mem procs exec zeroRqst =>
            cases stepped
            exact ⟨rfl, waits, rfl⟩
        obtain ⟨net, ready, nic⟩ := kept
        exact (ih ready (by rw [nic, reserved]) (by rw [net]; exact unsent) still ran).cons stepped

theorem step_queue (stepped : step cpu input = .ok after) (quiet : ∀ fresh, input ≠ .read fresh) :
    ∃ more, after.readQueue = cpu.readQueue ++ more := by
  cases input with
  | deliver event rand fresh => exact (handle_delivered stepped).readQueue
  | send => exact ⟨[], by rw [(sendPANMessage_sent stepped).readQueue, List.append_nil]⟩
  | read fresh => exact absurd rfl (quiet fresh)
  | post event dest =>
    cases stepped
    exact ⟨[], (List.append_nil _).symm⟩
  | outside mem procs exec zeroRqst =>
    cases stepped
    exact ⟨[], (List.append_nil _).symm⟩

theorem answered_later {rqst : ReadRqst} (stepped : step cpu input = .ok after)
    (answered : ∃ post ∈ later.posted.drop after.posted.length, Answers rqst post) :
    ∃ post ∈ later.posted.drop cpu.posted.length, Answers rqst post := by
  obtain ⟨⟨more, grown⟩, -⟩ := step_posted stepped
  obtain ⟨post, member, answers⟩ := answered
  refine ⟨post, ?_, answers⟩
  rw [grown, List.length_append, ← List.drop_drop] at member
  exact List.mem_of_mem_drop member

/-- A tick answers a read that is due, and leaves any other one with its cost lowered. -/
theorem read_progress {rqst : ReadRqst} (read : Read cpu after) (queued : rqst ∈ cpu.readQueue) :
    (∃ post ∈ after.posted.drop cpu.posted.length, Answers rqst post) ∨
      PanCPU.elapse rqst ∈ after.readQueue ∧ 2 ≤ rqst.cost.toNat ∧
        (PanCPU.elapse rqst).cost.toNat = rqst.cost.toNat - 1 := by
  obtain ⟨replies, posted, each⟩ := read.posted
  have member : PanCPU.elapse rqst ∈ cpu.readQueue.map PanCPU.elapse := List.mem_map_of_mem queued
  by_cases now : (PanCPU.elapse rqst).cost = 0
  · have inside : PanCPU.elapse rqst ∈ due (cpu.readQueue.map PanCPU.elapse) :=
      List.mem_filter.mpr ⟨member, by simpa using now⟩
    obtain ⟨index, bound, found⟩ := List.getElem_of_mem inside
    have paired : index < replies.length := by rw [← each.length_eq]; exact bound
    have answers := each.get bound paired
    rw [List.get_eq_getElem, List.get_eq_getElem, found] at answers
    have fields := elapse_fields rqst
    refine .inl ⟨replies[index], ?_, ?_, ?_, answers.2.2⟩
    · rw [posted, List.drop_left]
      exact List.getElem_mem paired
    · rw [answers.1, fields.2]
    · rw [answers.2.1, fields.1]
  · refine .inr ⟨?_, ?_⟩
    · rw [read.readQueue]
      exact List.mem_filter.mpr ⟨member, by simpa using now⟩
    · have lowered := elapse_cost now
      have more : (PanCPU.elapse rqst).cost.toNat ≠ 0 := fun zero => now (BitVec.eq_of_toNat_eq zero)
      exact ⟨by omega, by omega⟩

theorem run_answers {rqst : ReadRqst} (queued : rqst ∈ cpu.readQueue)
    (ran : run cpu inputs = .ok later) (elapsed : max 1 rqst.cost.toNat ≤ ticks inputs) :
    ∃ post ∈ later.posted.drop cpu.posted.length, Answers rqst post := by
  induction inputs generalizing cpu rqst with
  | nil => simp [ticks] at elapsed
  | cons input rest ih =>
    rw [run] at ran
    split at ran
    · cases ran
    · rename_i after stepped
      by_cases reads : ∃ fresh, input = .read fresh
      · obtain ⟨fresh, rfl⟩ := reads
        have one : ticks (.read fresh :: rest) = ticks rest + 1 := by simp [ticks]
        rcases read_progress (processPANMemRead_read stepped) queued with now | ⟨still, two, lowered⟩
        · obtain ⟨post, member, answers⟩ := now
          obtain ⟨⟨more, grown⟩, -⟩ := run_posted ran
          refine ⟨post, ?_, answers⟩
          rw [grown, List.drop_append]
          exact List.mem_append_left _ member
        · have again := ih still ran (by omega)
          obtain ⟨post, member, dest, tag, responds⟩ := answered_later stepped again
          have fields := elapse_fields rqst
          exact ⟨post, member, dest.trans fields.2, tag.trans fields.1, responds⟩
      · have quiet : ∀ fresh, input ≠ .read fresh := fun fresh same => reads ⟨fresh, same⟩
        have none : ticks (input :: rest) = ticks rest := by
          cases input <;> simp [ticks] at quiet ⊢
        obtain ⟨more, grown⟩ := step_queue stepped quiet
        have still : rqst ∈ after.readQueue := by
          rw [grown]
          exact List.mem_append_left _ queued
        exact answered_later stepped (ih still ran (by rw [← none]; exact elapsed))

end Steps

section Safe
variable {start : PanCPU} {inputs : List Input}

theorem careful_split {cpu middle : PanCPU} {before rest : List Input}
    (careful : Careful cpu (before ++ rest)) (ran : run cpu before = .ok middle) :
    Careful middle rest := by
  induction before generalizing cpu with
  | nil =>
    cases ran
    exact careful
  | cons input before ih =>
    rw [run] at ran
    split at ran
    · cases ran
    · rename_i after stepped
      exact ih (careful.2 after stepped) ran

theorem panHandleSyncGet_refused {cpu : PanCPU} {event : PanNicEvent} {rand : BitVec 32}
    (device : cpu.nic.isHost = false) (refused : cpu.nic.checkToken event.token = false) :
    cpu.panHandleSyncGet event rand = (cpu.panBuildFailedToken event).pushRead event rand := by
  simp [PanCPU.panHandleSyncGet, device, refused]

theorem ineffective_of_refused {cpu after : PanCPU} {event : PanNicEvent} {rand : BitVec 32}
    {fresh : Nat → Buffer} (device : cpu.nic.isHost = false) (request : event.opcode.requests = true)
    (notReserve : event.opcode ≠ .Reserve) (refused : cpu.nic.checkToken event.token = false)
    (careful : event.opcode = .SyncGet → cpu.procs ≠ [] → cpu.nic.checkToken event.token = true)
    (handled : cpu.handleNetPANMessage event rand fresh = .ok after) : Ineffective cpu after event := by
  by_cases syncGet : event.opcode = .SyncGet
  · -- Without a core the handler does not even draw a cost.
    have none : cpu.procs = [] := by
      by_contra cores
      rw [careful syncGet cores] at refused
      exact absurd refused (by simp)
    simp only [PanCPU.handleNetPANMessage, syncGet] at handled
    rw [panHandleSyncGet_refused device refused, PanCPU.pushRead] at handled
    have same : (cpu.panBuildFailedToken event).procs = [] := none
    rw [same] at handled
    cases handled
  · rw [handle_refused request device refused syncGet notReserve] at handled
    cases handled
    refine ⟨rfl, rfl, rfl, rfl, rfl, rfl, rfl, ?_⟩
    rw [PanCPU.panBuildFailedToken, buildFailed_eq]
    exact (List.append_assoc ..).symm

theorem TokenSafe.of_careful (device : start.nic.isHost = false) (careful : Careful start inputs) :
    TokenSafe start inputs := by
  constructor
  · intro before event rand fresh rest cpu after split ran handled request notReserve refused
    subst split
    have host := (run_posted ran).2.trans device
    have here := (careful_split careful ran).1 event rand fresh rfl
    exact ineffective_of_refused host request notReserve refused here handled
  · intro before event rand fresh rest cpu split ran reserve
    rw [step, PanCPU.handleNetPANMessage]
    simp only [reserve, panHandleReserve_eq]
    cases reserved : cpu.nic.isReserved with
    | true =>
      refine ⟨_, _, rfl, (List.append_assoc ..).symm, ?_⟩
      rw [buildFailed_eq]
      constructor
      · intro success
        cases success
      · intro free
        cases free
    | false =>
      refine ⟨_, _, rfl, (List.append_assoc ..).symm, ?_⟩
      rw [buildSuccess_eq]
      exact ⟨fun _ => rfl, fun _ => rfl⟩
  · intro before event rand fresh middle rest cpu after later split ran revoke accepted handled
      onwards sent again
    simp only [step, PanCPU.handleNetPANMessage, revoke, Except.ok.injEq, PanCPU.panHandleRevoke,
      accepted, Bool.not_true, Bool.false_eq_true, if_false] at handled
    subst handled
    have posted : ∀ reply, cpu.posted.length < ({ cpu with readyForRevoke := true }.push reply
        event.src).posted.length := by
      intro reply
      have longer : ({ cpu with readyForRevoke := true }.push reply event.src).posted =
          cpu.posted ++ [(reply, event.src)] := (List.append_assoc ..).symm
      rw [longer, List.length_append]
      exact Nat.lt_succ_self _
    have held : cpu.nic.isReserved = true := (Bool.and_eq_true_iff.mp accepted).1
    have below : cpu.net.length ≤ cpu.posted.length := by
      rw [PanCPU.posted, List.length_append]
      exact Nat.le_add_right ..
    exact run_revoked rfl held below (posted _) onwards sent again
  · intro before middle rest cpu later rqst split ran queued onwards elapsed
    exact run_answers queued onwards elapsed

theorem TokenSafe.tail {cpu after : PanCPU} {input : Input} {rest : List Input}
    (safe : TokenSafe cpu (input :: rest)) (stepped : step cpu input = .ok after) :
    TokenSafe after rest := by
  have shifted : ∀ {before middle}, run after before = .ok middle →
      run cpu (input :: before) = .ok middle := by
    intro before middle ran
    rw [run, stepped]
    exact ran
  constructor
  · intro before event rand fresh rest cpu after split ran
    exact safe.guarded (input :: before) event rand fresh rest cpu after (by rw [split]; rfl)
      (shifted ran)
  · intro before event rand fresh rest cpu split ran
    exact safe.reserved (input :: before) event rand fresh rest cpu (by rw [split]; rfl) (shifted ran)
  · intro before event rand fresh middle rest cpu after later split ran
    exact safe.revoked (input :: before) event rand fresh middle rest cpu after later
      (by rw [split]; rfl) (shifted ran)
  · intro before middle rest cpu later rqst split ran
    exact safe.answered (input :: before) middle rest cpu later rqst (by rw [split]; rfl)
      (shifted ran)

theorem Careful.of_tokenSafe (device : start.nic.isHost = false) (safe : TokenSafe start inputs) :
    Careful start inputs := by
  induction inputs generalizing start with
  | nil => trivial
  | cons input rest ih =>
    refine ⟨?_, fun after stepped =>
      ih ((step_posted stepped).2.trans device) (safe.tail stepped)⟩
    rintro event rand fresh rfl syncGet cores
    by_contra accepted
    have refused : start.nic.checkToken event.token = false := by simpa using accepted
    obtain ⟨core, first⟩ : ∃ core, start.procs.head? = some core := by
      cases procs : start.procs with
      | nil => exact absurd procs cores
      | cons core others => exact ⟨core, rfl⟩
    have queued : (start.panBuildFailedToken event).procs.head? = some core := first
    -- The refused read is queued all the same.
    have stepped : step start (.deliver event rand fresh) = .ok { start.panBuildFailedToken event with
        readQueue := start.readQueue ++
          [⟨event.tag, event.size, randCost core.feature rand, event.src, event.addr⟩] } := by
      simp only [step, PanCPU.handleNetPANMessage, syncGet]
      rw [panHandleSyncGet_refused device refused, pushRead_ok queued]
      rfl
    have still := (safe.guarded [] event rand fresh rest start _ rfl rfl stepped
      (by rw [syncGet]; rfl) (by rw [syncGet]; decide) refused).readQueue
    simp at still

/-- In a run of a device the token keeps what it promises exactly when every SyncGet carries it. -/
theorem token_safe_iff (device : start.nic.isHost = false) :
    TokenSafe start inputs ↔ Careful start inputs :=
  ⟨Careful.of_tokenSafe device, TokenSafe.of_careful device⟩

-- The SyncGet carries the token 6 where 7 is reserved, and is read.
theorem sync_get_reads_unreserved :
    ¬ TokenSafe smallDevice [.deliver (stackGet 6 3 5) 0 fun _ _ => 0] := by
  intro safe
  have stepped := safe.guarded [] (stackGet 6 3 5) 0 (fun _ _ => 0) [] smallDevice _ rfl rfl rfl
    (by decide) (by decide) (by decide)
  exact absurd stepped.readQueue (by decide)

theorem token_safe_iff_revoke : TokenSafe smallDevice
    [.deliver { stackGet 7 3 5 with opcode := .Revoke } 0 fun _ _ => 0, .send] := by
  apply (token_safe_iff rfl).mpr
  refine ⟨?_, fun after stepped => ⟨?_, fun _ _ => trivial⟩⟩
  · intro event rand fresh same named
    cases same
    exact absurd named (by decide)
  · intro event rand fresh same
    cases same

end Safe
end RevCPU.Pan
