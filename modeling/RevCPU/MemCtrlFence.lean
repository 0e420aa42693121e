import RevCPU.MemCtrlOrder
import RevCPU.MemCtrlConserve
/-!
FENCE in the memory controller. A fence is taken out of the queue, counted in `num_fence`, and cleared
by a later tick once the counters of everything but flushes are zero. It holds what it should when it is
taken at the head of the queue and no flush is left when it is cleared.
-/
namespace RevCPU.MemCtrl
open Mem MemRefine RegFile Atomic

section Fence
variable {config : Config} {run : Run}

def isFence (run : Run) (ptr : Nat) : Prop := ∃ call, (ptr, call) ∈ run.accepted ∧ call.op.op = .FENCE

/-- No request is on the interface while an operation in front of a fence before it is unfinished. -/
def FenceOrdered (run : Run) : Prop :=
  ∀ request ∈ run.ctrl.wire, ∀ fence, isFence run fence → fence < request.op.ptr →
    ∀ ptr < fence, ptr ∈ run.ctrl.deleted

/-- A FENCE is taken at the head of the queue only, and where flushes are outstanding as a tick looks at
a pending fence there are other requests too. -/
def fencesWait (config : Config) (run : Run) : Event → Prop
  | .next => ∀ tick front op back, run.tick = some tick → Taken config tick run.ctrl front op back →
    op.op = .FENCE → front = []
  | .begin => 0 < run.ctrl.numFence → run.ctrl.outstanding.length < 2 ^ 64 ∧
    ((∀ entry ∈ run.ctrl.outstanding, entry.2.op ≠ .FLUSH) ∨
      ∃ entry ∈ run.ctrl.outstanding, entry.2.op ≠ .FLUSH)
  | _ => True

/-- What holds between the ticks: at most one fence is pending, and nothing behind it is sent. -/
structure FenceState (run : Run) : Prop where
  pending : run.ctrl.numFence ≤ 1
  running : run.tick ≠ none → run.ctrl.numFence = 0
  waiting : ∀ op ∈ run.ctrl.rqstQ, op.op = .FENCE → ∀ request ∈ run.ctrl.wire, request.op.ptr < op.ptr
  ahead : ∀ fence ∈ run.ctrl.deleted, isFence run fence → ∀ op ∈ run.ctrl.rqstQ, fence < op.ptr
  taken : ∀ fence ∈ run.ctrl.deleted, isFence run fence → (∀ ptr < fence, ptr ∈ run.ctrl.deleted) ∨
    run.ctrl.numFence = 1 ∧ ∀ request ∈ run.ctrl.wire, request.op.ptr < fence

-- A fence is never sent, so it is queued until it is taken.
theorem fence_placed (sound : Sound run.ctrl) (traced : Traced run) {fence : Nat}
    (known : isFence run fence) :
    fence ∈ run.ctrl.deleted ∨ ∃ op ∈ run.ctrl.rqstQ, op.ptr = fence ∧ op.op = .FENCE := by
  obtain ⟨call, accepted, kind⟩ := known
  have shape : ∀ op, Origin run op → op.ptr = fence → op.op = .FENCE := by
    rintro op (⟨other, member, built⟩ | ⟨read, other, written, _⟩) rfl
    · rw [built, traced.call_unique member accepted]
      exact kind
    · exact (traced.apart accepted written).elim
  by_cases queued : ∃ op ∈ run.ctrl.rqstQ, op.ptr = fence
  · obtain ⟨op, member, same⟩ := queued
    exact .inr ⟨op, member, same, shape op (traced.queue op member) same⟩
  · left
    apply sound.deleted_of (traced.accepted_lt accepted)
    · exact fun op member same => queued ⟨op, member, same⟩
    · rintro ⟨id, op⟩ held same
      exact sound.real _ held (shape op (traced.held_origin sound held) same)

theorem FenceState.ordered (state : FenceState run) (sound : Sound run.ctrl) (traced : Traced run) :
    FenceOrdered run := by
  intro request sent fence known before ptr earlier
  rcases fence_placed sound traced known with dead | ⟨op, member, same, kind⟩
  · rcases state.taken fence dead known with cleared | ⟨_, behind⟩
    · exact cleared ptr earlier
    · exact absurd (behind request sent) (by omega)
  · have behind := state.waiting op member kind request sent
    omega

-- A pending fence is cleared with nothing outstanding: the sum sees all but flushes.
theorem landed_of_quiet {good : Run → Event → Prop} (reached : Reached config good run)
    (pending : 0 < run.ctrl.numFence) (meets : fencesWait config run .begin)
    (quiet : run.ctrl.waits = false) : run.ctrl.outstanding = [] := by
  obtain ⟨small, flushes⟩ := meets pending
  have summed := reached_busy reached
  have zero : busy run.ctrl.num = 0 := by simpa [Ctrl.waits, busy] using quiet
  have bound : outstandingNonFlush run.ctrl ≤ run.ctrl.outstanding.length := List.countP_le_length
  have none : outstandingNonFlush run.ctrl = 0 := by
    have value := congrArg BitVec.toNat (summed.symm.trans zero)
    rw [BitVec.toNat_ofNat, Nat.mod_eq_of_lt (by omega)] at value
    exact value
  have all_flush : ∀ entry ∈ run.ctrl.outstanding, entry.2.op = .FLUSH := by
    intro entry member
    simpa using List.countP_eq_zero.mp none entry member
  apply List.eq_nil_iff_forall_not_mem.mpr
  intro entry member
  rcases flushes with never | ⟨other, held, plain⟩
  · exact never entry member (all_flush entry member)
  · exact plain (all_flush other held)

theorem FenceState.accept (state : FenceState run) (sound : Sound run.ctrl) (call : Call)
    (hazards : Nat → Bool) :
    FenceState
      { run with
          ctrl := called run.ctrl call hazards
          accepted := run.accepted ++ [(run.ctrl.nextPtr, call)] } := by
  have older : ∀ ptr ∈ run.ctrl.deleted, ptr < run.ctrl.nextPtr := by
    intro ptr dead
    have placed := sound.placed ptr
    have counted := List.count_pos_iff.mpr dead
    rw [places] at placed
    split at placed
    · assumption
    · omega
  have known : ∀ fence ∈ run.ctrl.deleted, isFence
      { run with
          ctrl := called run.ctrl call hazards
          accepted := run.accepted ++ [(run.ctrl.nextPtr, call)] } fence → isFence run fence := by
    rintro fence dead ⟨other, member, kind⟩
    rcases List.mem_append.mp member with old | new
    · exact ⟨other, old, kind⟩
    · have same := (Prod.mk.inj (List.mem_singleton.mp new)).1
      exact absurd (older fence dead) (by omega)
  constructor
  case pending => exact state.pending
  case running => exact state.running
  case waiting =>
    intro op member kind request sent
    rcases List.mem_append.mp member with old | new
    · exact state.waiting op old kind request sent
    · rw [List.mem_singleton.mp new]
      exact (sound.sent request sent).1
  case ahead =>
    intro fence dead fenced op member
    rcases List.mem_append.mp member with old | new
    · exact state.ahead fence dead (known fence dead fenced) op old
    · rw [List.mem_singleton.mp new]
      exact older fence dead
  case taken => exact fun fence dead fenced => state.taken fence dead (known fence dead fenced)

theorem FenceState.answer (state : FenceState run) (sound : Sound run.ctrl) (traced : Traced run)
    {id : Nat} {data : Buffer} {op : RevMemOp} {created : List RevMemOp} {ctrl : Ctrl}
    {writes : List (Nat × Nat)} (held : (id, op) ∈ run.ctrl.outstanding)
    (answered : Answered config run.ctrl id data op created ctrl) :
    FenceState { run with ctrl := ctrl, writes := writes } := by
  have new : ∀ write ∈ created, write.op = .WRITE ∧ write.ptr = run.ctrl.nextPtr := by
    intro write member
    cases closes : closesAMO run.ctrl op with
    | false =>
      rw [(answered.quiet closes).1] at member
      cases member
    | true =>
      obtain ⟨_, target, host, _, rfl, _⟩ := answered.modifies closes
      rw [List.mem_singleton.mp member]
      exact ⟨rfl, rfl⟩
  -- the operation answered is no fence
  have dead : ∀ fence ∈ ctrl.deleted, isFence run fence → fence ∈ run.ctrl.deleted := by
    intro fence member known
    rw [answered.deleted] at member
    rcases List.mem_append.mp member with old | last
    · exact old
    · rcases fence_placed sound traced known with before | ⟨other, queued, same, _⟩
      · exact before
      · split at last
        · rw [List.mem_singleton.mp last] at same
          have unqueued := (sound.held_lt held).2.1
          exact absurd (by simpa using same) (List.countP_eq_zero.mp unqueued other queued)
        · cases last
  have grows : ∀ ptr ∈ run.ctrl.deleted, ptr ∈ ctrl.deleted := by
    intro ptr member
    rw [answered.deleted]
    exact List.mem_append_left _ member
  constructor
  case pending =>
    rw [answered.numFence]
    exact state.pending
  case running =>
    rw [answered.numFence]
    exact state.running
  case waiting =>
    intro other member kind request sent
    rw [answered.wire] at sent
    rw [answered.rqstQ] at member
    rcases List.mem_append.mp member with old | fresh
    · exact state.waiting other old kind request sent
    · rw [(new other fresh).2]
      exact (sound.sent request sent).1
  case ahead =>
    intro fence member known other queued
    have before := dead fence member known
    rw [answered.rqstQ] at queued
    rcases List.mem_append.mp queued with old | fresh
    · exact state.ahead fence before known other old
    · obtain ⟨call, accepted, _⟩ := known
      rw [(new other fresh).2]
      exact traced.accepted_lt accepted
  case taken =>
    intro fence member known
    rcases state.taken fence (dead fence member known) known with cleared | held
    · exact .inl fun ptr earlier => grows ptr (cleared ptr earlier)
    · rw [answered.numFence, answered.wire]
      exact .inr held

theorem FenceState.start {good : Run → Event → Prop} (state : FenceState run)
    (reached : Reached config good run) (meets : fencesWait config run .begin) {fences : Nat}
    {tick : Option Tick} (opening : Opening run.ctrl fences tick) :
    FenceState { run with ctrl := { run.ctrl with numFence := fences }, tick := tick } := by
  have sound := reached_sound reached
  have traced := reached_traced reached
  rcases opening with ⟨rfl, rfl⟩ | ⟨rfl, ⟨none, rfl⟩ | ⟨one, quiet⟩⟩
  · exact ⟨state.pending, fun running => absurd rfl running, state.waiting, state.ahead, state.taken⟩
  · refine ⟨Nat.zero_le _, fun _ => rfl, state.waiting, state.ahead, ?_⟩
    intro fence dead known
    rcases state.taken fence dead known with cleared | ⟨pending, _⟩
    · exact .inl cleared
    · rw [none] at pending
      cases pending
  · have bound := state.pending
    have zero : fences = 0 := by omega
    have landed := landed_of_quiet reached (by omega) meets quiet
    refine ⟨by simp [zero], fun _ => zero, state.waiting, state.ahead, ?_⟩
    intro fence dead known
    left
    intro ptr earlier
    obtain ⟨call, accepted, kind⟩ := known
    have old := traced.accepted_lt accepted
    apply sound.deleted_of (Nat.lt_trans earlier old)
    · intro op member same
      have later := state.ahead fence dead ⟨call, accepted, kind⟩ op member
      omega
    · rw [landed]
      intro entry member
      cases member

theorem FenceState.fence (state : FenceState run) (sound : Sound run.ctrl) {tick : Tick}
    {back : List RevMemOp} {op : RevMemOp} (running : run.tick = some tick)
    (queue : run.ctrl.rqstQ = [] ++ op :: back) (kind : op.op = .FENCE) :
    FenceState { run with ctrl := fenced run.ctrl [] op back, tick := none } := by
  have none : run.ctrl.numFence = 0 := state.running (by simp [running])
  have member : op ∈ run.ctrl.rqstQ := by simp [queue]
  have behind := (sound.front_lt queue).2
  constructor
  case pending => simp [fenced, none]
  case running => exact fun running => absurd rfl running
  case waiting =>
    intro other waits fence
    exact state.waiting other ((sublist_taken queue).subset waits) fence
  case ahead =>
    intro fence dead known other waits
    rcases List.mem_append.mp dead with old | new
    · exact state.ahead fence old known other ((sublist_taken queue).subset waits)
    · rw [List.mem_singleton.mp new]
      exact behind other waits
  case taken =>
    intro fence dead known
    rcases List.mem_append.mp dead with old | new
    · rcases state.taken fence old known with cleared | ⟨pending, _⟩
      · exact .inl fun ptr earlier => List.mem_append_left _ (cleared ptr earlier)
      · rw [none] at pending
        cases pending
    · rw [List.mem_singleton.mp new]
      exact .inr ⟨by simp [fenced, none], state.waiting op member kind⟩

theorem FenceState.sentOff (state : FenceState run) (sound : Sound run.ctrl) {tick : Tick}
    {front back : List RevMemOp} {op : RevMemOp} {lane : Lane} (next : Option Tick)
    (running : run.tick = some tick) (taken : Taken config tick run.ctrl front op back) :
    FenceState { run with ctrl := sentOff config run.ctrl front op back lane, tick := next } := by
  have none : run.ctrl.numFence = 0 := state.running (by simp [running])
  have behind := (sound.front_lt taken.queue).2
  constructor
  case pending => exact state.pending
  case running => exact fun _ => none
  case waiting =>
    intro fence waits kind request sent
    rcases List.mem_append.mp sent with old | new
    · exact state.waiting fence ((sublist_taken taken.queue).subset waits) kind request old
    · rw [(wireOf_mem new).1]
      rcases List.mem_append.mp waits with passed | later
      · -- a fence is always available, so the scan never passes one
        have available : tick.avail config fence = true := by
          rw [Tick.avail, kind]
          rfl
        rw [taken.passed fence passed] at available
        cases available
      · exact behind fence later
  case ahead =>
    intro fence dead known other waits
    exact state.ahead fence dead known other ((sublist_taken taken.queue).subset waits)
  case taken =>
    intro fence dead known
    rcases state.taken fence dead known with cleared | ⟨pending, _⟩
    · exact .inl cleared
    · rw [none] at pending
      cases pending

theorem reached_fenceState (reached : Reached config (fencesWait config) run) : FenceState run := by
  induction reached with
  | start host hazards => constructor <;> simp [Ctrl.new]
  | @step run after before event legal meets stepped ih =>
    have sound := reached_sound before
    cases step_move sound legal stepped with
    | refuse => exact ih
    | accept call accepts hazards => exact ih.accept sound call hazards
    | answer id data op created ctrl held answered =>
      exact ih.answer sound (reached_traced before) held answered
    | start fences tick opening => exact ih.start before meets opening
    | idle tick => exact ⟨ih.pending, fun _ => ih.running legal, ih.waiting, ih.ahead, ih.taken⟩
    | fence tick front op back running taken kind =>
      obtain rfl := meets tick front op back running taken kind
      exact ih.fence sound running taken.queue kind
    | dispatch tick front op back lane next running taken isLane sends =>
      exact ih.sentOff sound next running taken

/-- In a run whose ticks meet the condition nothing behind a FENCE is sent before everything in front of
it has its responses. -/
theorem fence_order (reached : Reached config (fencesWait config) run) : FenceOrdered run :=
  (reached_fenceState reached).ordered (reached_sound reached) (reached_traced reached)

def fencesWaitB (config : Config) (run : Run) : Event → Bool
  | .next => (picks config run).all fun pick => pick.2.1.op != .FENCE || pick.1.isEmpty
  | .begin => run.ctrl.numFence == 0 || decide (run.ctrl.outstanding.length < 2 ^ 64) &&
    (run.ctrl.outstanding.all (fun entry => entry.2.op != .FLUSH) ||
      run.ctrl.outstanding.any fun entry => entry.2.op != .FLUSH)
  | _ => true

theorem fencesWait_of (run : Run) (event : Event) (passed : fencesWaitB config run event = true) :
    fencesWait config run event := by
  cases event with
  | next =>
    intro tick front op back running taken kind
    simpa [fencesWaitB, picks_of_taken running taken, kind] using passed
  | begin =>
    intro pending
    simpa [fencesWaitB, Nat.ne_of_gt pending] using passed
  | send call => trivial
  | respond id data => trivial

theorem fence_order_write_read : ∃ run, Reached narrow (fencesWait narrow) run ∧
    (run.ctrl.wire.map (fun request => request.op.ptr), run.ctrl.deleted) = ([0, 2], [1, 0]) ∧
      FenceOrdered run := by
  have seen : (follow narrow (fencesWaitB narrow) ⟨Ctrl.new (fun _ => 0) (fun _ => false), none, [], []⟩
      [.send (.sendWRITERequest 0 8 8 4 (fun _ => 7) 0), .send (.sendFENCE 0),
        .send (.sendREADRequest 0 16 16 4 4 1 0), .begin, .next, .next, .respond 0 fun _ => 0,
        .begin, .next]).map
        (fun run => (run.ctrl.wire.map (fun request => request.op.ptr), run.ctrl.deleted)) =
      some ([0, 2], [1, 0]) := by decide
  obtain ⟨run, reached, observed⟩ := follow_seen _ fencesWait_of seen
  exact ⟨run, reached, observed, fence_order reached⟩

/-- A flush, a FENCE and a load: the load leaves while the flush is outstanding. -/
theorem load_passes_flush : ∃ run, Reached narrow (fun _ _ => True) run ∧
    (run.ctrl.wire.map (fun request => request.op.ptr), run.ctrl.deleted, run.accepted.map Prod.fst) =
      ([0, 2], [1], [0, 1, 2]) ∧ ¬ FenceOrdered run := by
  have seen : (follow narrow (fun _ _ => true) ⟨Ctrl.new (fun _ => 0) (fun _ => false), none, [], []⟩
      [.send (.sendFLUSHRequest 0 8 8 4 false 0), .send (.sendFENCE 0),
        .send (.sendREADRequest 0 16 16 4 4 1 0), .begin, .next, .next, .begin, .next]).map
        (fun run => ((run.ctrl.wire.map (fun request => request.op.ptr), run.ctrl.deleted,
          run.accepted.map Prod.fst), run.accepted.any fun entry => entry.1 == 1 &&
            entry.2.op.op == .FENCE)) =
      some (([0, 2], [1], [0, 1, 2]), true) := by decide
  obtain ⟨run, reached, observed⟩ := follow_seen _ (fun _ _ _ => trivial) seen
  rw [Prod.mk.injEq] at observed
  refine ⟨run, reached, observed.1, ?_⟩
  intro ordered
  obtain ⟨⟨ptr, call⟩, member, fence⟩ := List.any_eq_true.mp observed.2
  simp only [Bool.and_eq_true, beq_iff_eq] at fence
  obtain ⟨rfl, kind⟩ := fence
  simp only [Prod.mk.injEq] at observed
  have sent : 2 ∈ run.ctrl.wire.map fun request => request.op.ptr := by simp [observed.1.1]
  obtain ⟨request, member', same⟩ := List.mem_map.mp sent
  have dead := ordered request member' 1 ⟨call, member, kind⟩ (by omega) 0 (by decide)
  rw [observed.1.2.1] at dead
  exact absurd dead (by decide)

end Fence
end RevCPU.MemCtrl
