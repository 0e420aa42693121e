import RevCPU.MemCtrlLines
import RevCPU.MemCtrlSound
/-!
The while loop of clockTick, which stops when `t_max_ops` equals `max_ops`. A turn of it sends an
operation and takes it out of the queue, or sets the two equal. The queue, the limits and the other
state are arbitrary here; a response does not come before the tick is over.
-/
namespace RevCPU.MemCtrl
open Mem MemRefine

section Loop
variable (config : Config)

/-- The loop, without a bound on its turns. -/
inductive Loop : Tick → Ctrl → Ctrl → Prop
  | last {tick next : Tick} {ctrl after : Ctrl}
    (ran : ctrl.processNextRqst config tick = .ok (next, after)) (full : next.ops = config.maxOps) :
    Loop tick ctrl after
  | again {tick next : Tick} {ctrl middle after : Ctrl}
    (ran : ctrl.processNextRqst config tick = .ok (next, middle)) (more : next.ops ≠ config.maxOps)
    (rest : Loop next middle after) : Loop tick ctrl after

/-- The loop comes from one state to the next and goes on. -/
def Again (later earlier : Tick × Ctrl) : Prop :=
  earlier.2.processNextRqst config earlier.1 = .ok later ∧ later.1.ops ≠ config.maxOps

/-- A tick: nothing while a fence waits, otherwise the loop. -/
def Ticked (ctrl after : Ctrl) : Prop :=
  match Run.opening ctrl with
  | (opened, none) => after = opened
  | (opened, some tick) => Loop config tick opened after

def Serves (op : RevMemOp) (batch : List Request) : Prop :=
  batch ≠ [] ∧ ∀ request ∈ batch, ∃ count, request.op = { op with splitRqst := count }

/-- What a tick does to the queue: `sent` are the operations it sends, with their requests, and
`fences` those it takes out as fences. -/
structure Dispatches (ctrl after : Ctrl) (sent : List (RevMemOp × List Request))
    (fences : List RevMemOp) : Prop where
  queue : ctrl.rqstQ.Perm (sent.map Prod.fst ++ fences ++ after.rqstQ)
  order : after.rqstQ.Sublist ctrl.rqstQ
  wire : after.wire = ctrl.wire ++ (sent.map Prod.snd).flatten
  serves : ∀ one ∈ sent, Serves one.1 one.2
  fenced : ∀ op ∈ fences, op.op = .FENCE
  deleted : after.deleted = ctrl.deleted ++ fences.map RevMemOp.ptr

theorem again_wellFounded : WellFounded (Again config) := by
  apply Subrelation.wf _ (measure fun state : Tick × Ctrl => state.2.rqstQ.length).wf
  rintro later earlier ⟨ran, more⟩
  exact (processNextRqst_shrinks ran).resolve_left more

variable {config} {ctrl : Ctrl} {op : RevMemOp}

theorem issueAll_deleted (lane : Lane) (flags : BitVec 32) (curByte : Nat) (pieces : List (Nat × Nat)) :
    (ctrl.issueAll op lane flags curByte pieces).deleted = ctrl.deleted := by
  induction pieces generalizing ctrl curByte with
  | nil => rfl
  | cons piece rest ih => exact ih _

theorem build_cases (config : Config) (ctrl : Ctrl) (real : op.op ≠ .FENCE) :
    (∃ same, ctrl.buildStandardMemRqst config op = some (false, same)) ∨
    ∃ after batch, ctrl.buildStandardMemRqst config op = some (true, after) ∧ Serves op batch ∧
      after.wire = ctrl.wire ++ batch ∧ after.deleted = ctrl.deleted := by
  obtain ⟨lane, isLane⟩ : ∃ lane, op.op.lane = some lane := by
    cases kind : op.op <;> first | exact absurd kind real | exact ⟨_, rfl⟩
  have raw : ∀ flags, ∃ after batch,
      ((ctrl.buildRawMemRqst op flags).map fun ctrl => (true, ctrl)) = some (true, after) ∧
        Serves op batch ∧ after.wire = ctrl.wire ++ batch ∧ after.deleted = ctrl.deleted := by
    intro flags
    rw [Ctrl.buildRawMemRqst, isLane]
    refine ⟨_, [⟨ctrl.nextId, op, op.addr, op.size, op.membuf, flags⟩], rfl, ⟨by simp, ?_⟩, rfl, rfl⟩
    rintro request (_ | ⟨_, ⟨⟩⟩)
    exact ⟨op.splitRqst, rfl⟩
  unfold Ctrl.buildStandardMemRqst
  split
  · rw [Ctrl.buildCacheMemRqst, isLane]
    dsimp only
    split
    · exact .inl ⟨_, rfl⟩
    · refine .inr ⟨_, _, rfl, ⟨?_, ?_⟩, issueAll_wire _ _ _, issueAll_deleted _ _ _ _⟩
      · rw [← List.length_pos_iff, length_wireOf, length_cachePieces]
        exact getNumCacheLines_pos _ _
      · intro request member
        exact ⟨_, wireOf_op _ _ _ request member⟩
  · split
    · exact .inr (raw _)
    · exact .inr (raw _)

theorem turn_cases (config : Config) (tick : Tick) (ctrl : Ctrl) : ∃ next after,
    ctrl.processNextRqst config tick = .ok (next, after) ∧
    (next.ops = config.maxOps ∧ after = ctrl ∨
    ∃ front op back, ctrl.rqstQ = front ++ op :: back ∧ after.rqstQ = front ++ back ∧
      (op.op = .FENCE ∧ next.ops = config.maxOps ∧ after.wire = ctrl.wire ∧
        after.deleted = ctrl.deleted ++ [op.ptr] ∨
      next.ops = tick.ops + 1 ∧ after.deleted = ctrl.deleted ∧
        ∃ batch, Serves op batch ∧ after.wire = ctrl.wire ++ batch)) := by
  unfold Ctrl.processNextRqst
  split
  · exact ⟨_, _, rfl, .inl ⟨rfl, rfl⟩⟩
  · rename_i front op back scanned
    have queue := (span_taken scanned).queue
    dsimp only
    split
    · rename_i fence
      exact ⟨_, _, rfl, .inr ⟨front, op, back, queue, rfl, .inl ⟨fence, rfl, rfl, rfl⟩⟩⟩
    · rename_i real
      split
      · exact ⟨_, _, rfl, .inl ⟨rfl, rfl⟩⟩
      · rcases build_cases config ctrl real with
          ⟨same, held⟩ | ⟨after, batch, built, serves, wire, deleted⟩
        · rw [held]
          exact ⟨_, _, rfl, .inl ⟨rfl, rfl⟩⟩
        · rw [built]
          have counted : (tick.take op).ops = tick.ops + 1 := by
            unfold Tick.take
            split
            · rfl
            · rfl
          exact ⟨_, _, rfl, .inr ⟨front, op, back, queue, rfl,
            .inr ⟨counted, deleted, batch, serves, wire⟩⟩⟩

section Dispatches
variable {middle after : Ctrl} {sent : List (RevMemOp × List Request)} {fences : List RevMemOp}

theorem Dispatches.none (ctrl : Ctrl) : Dispatches ctrl ctrl [] [] where
  queue := List.Perm.refl _
  order := List.Sublist.refl _
  wire := (List.append_nil _).symm
  serves := by simp
  fenced := by simp
  deleted := (List.append_nil _).symm

theorem Dispatches.fence {front back : List RevMemOp} (queue : ctrl.rqstQ = front ++ op :: back)
    (left : after.rqstQ = front ++ back) (fence : op.op = .FENCE) (wire : after.wire = ctrl.wire)
    (deleted : after.deleted = ctrl.deleted ++ [op.ptr]) : Dispatches ctrl after [] [op] where
  queue := by
    rw [queue, left]
    exact List.perm_middle
  order := by
    rw [left]
    exact sublist_taken queue
  wire := by simp [wire]
  serves := by simp
  fenced := by simpa using fence
  deleted := deleted

-- A turn that sends an operation, in front of the turns behind it.
theorem Dispatches.send {front back : List RevMemOp} {batch : List Request}
    (queue : ctrl.rqstQ = front ++ op :: back) (left : middle.rqstQ = front ++ back)
    (serves : Serves op batch) (wire : middle.wire = ctrl.wire ++ batch)
    (deleted : middle.deleted = ctrl.deleted) (rest : Dispatches middle after sent fences) :
    Dispatches ctrl after ((op, batch) :: sent) fences where
  queue := by
    have later := rest.queue
    rw [left] at later
    rw [queue]
    have moved : (front ++ op :: back).Perm (op :: (front ++ back)) := List.perm_middle
    exact moved.trans (later.cons op)
  order := by
    have later := rest.order
    rw [left] at later
    exact later.trans (sublist_taken queue)
  wire := by simp [rest.wire, wire]
  serves := by
    rw [List.forall_mem_cons]
    exact ⟨serves, rest.serves⟩
  fenced := rest.fenced
  deleted := by rw [rest.deleted, deleted]

end Dispatches

theorem Loop.unique {tick : Tick} {ctrl after other : Ctrl} (loop : Loop config tick ctrl after)
    (loop' : Loop config tick ctrl other) : other = after := by
  induction loop with
  | last ran full =>
    cases loop' with
    | last ran' full' =>
      rw [ran] at ran'
      cases ran'
      rfl
    | again ran' more rest =>
      rw [ran] at ran'
      cases ran'
      exact absurd full more
  | again ran more rest ih =>
    cases loop' with
    | last ran' full =>
      rw [ran] at ran'
      cases ran'
      exact absurd full more
    | again ran' more' rest' =>
      rw [ran] at ran'
      cases ran'
      exact ih rest'

-- The induction is on the number of turns that clockTick's model allows, of which some are left.
theorem loop_dispatches (config : Config) {fuel : Nat} (tick : Tick) {ctrl : Ctrl}
    (enough : ctrl.rqstQ.length < fuel) :
    ∃ after sent fences, Loop config tick ctrl after ∧
      ctrl.processLoop config fuel tick = .ok after ∧ Dispatches ctrl after sent fences ∧
      (tick.ops < config.maxOps → tick.ops + sent.length + fences.length ≤ config.maxOps) := by
  induction fuel generalizing tick ctrl with
  | zero => exact absurd enough (Nat.not_lt_zero _)
  | succ fuel ih =>
    obtain ⟨next, middle, ran, turn⟩ := turn_cases config tick ctrl
    rw [Ctrl.processLoop]
    simp only [ran]
    rcases turn with ⟨full, rfl⟩ | ⟨front, op, back, queue, left, ⟨fence, full, wire, deleted⟩ |
      ⟨counted, deleted, batch, serves, wire⟩⟩
    · rw [if_pos full]
      exact ⟨middle, [], [], .last ran full, rfl, .none middle, fun below => Nat.le_of_lt below⟩
    · rw [if_pos full]
      exact ⟨middle, [], [op], .last ran full, rfl, .fence queue left fence wire deleted, fun below => below⟩
    · by_cases full : next.ops = config.maxOps
      · rw [if_pos full]
        refine ⟨middle, [(op, batch)], [], .last ran full, rfl,
          .send queue left serves wire deleted (.none middle), fun below => ?_⟩
        simp only [List.length_singleton, List.length_nil]
        omega
      · rw [if_neg full]
        have shorter : middle.rqstQ.length < fuel := by
          rw [queue] at enough
          rw [left]
          simp only [List.length_append, List.length_cons] at enough ⊢
          omega
        obtain ⟨after, sent, fences, loop, looped, dispatches, bound⟩ := ih next shorter
        refine ⟨after, (op, batch) :: sent, fences, .again ran full loop, looped,
          .send queue left serves wire deleted dispatches, fun below => ?_⟩
        have later := bound (by omega)
        rw [List.length_cons]
        omega

/-- The loop of clockTick comes to its end from every state and with every setting of the limits. An
operation is sent or removed at most once, those left in the queue are as they were and in their
order, and a limit of at least one operation is kept. -/
theorem dispatch_loop_terminates (config : Config) (ctrl : Ctrl) :
    WellFounded (Again config) ∧
    ∃ after, ctrl.clockTick config = .ok after ∧ Ticked config ctrl after ∧
      (∀ other, Ticked config ctrl other → other = after) ∧
      ∃ sent fences, Dispatches ctrl after sent fences ∧
        (1 ≤ config.maxOps → sent.length + fences.length ≤ config.maxOps) := by
  refine ⟨again_wellFounded config, ?_⟩
  have loops : ∀ opened : Ctrl, opened.rqstQ = ctrl.rqstQ → opened.wire = ctrl.wire →
      opened.deleted = ctrl.deleted → ∃ after,
        opened.processLoop config (ctrl.rqstQ.length + 1) Tick.new = .ok after ∧
        Loop config Tick.new opened after ∧
        (∀ other, Loop config Tick.new opened other → other = after) ∧
        ∃ sent fences, Dispatches ctrl after sent fences ∧
          (1 ≤ config.maxOps → sent.length + fences.length ≤ config.maxOps) := by
    intro opened queue wire deleted
    obtain ⟨after, sent, fences, loop, looped, dispatches, bound⟩ :=
      loop_dispatches config Tick.new (Nat.lt_succ_self opened.rqstQ.length)
    rw [queue] at looped
    refine ⟨after, looped, loop, fun other => loop.unique, sent, fences, ?_, fun one => ?_⟩
    · obtain ⟨queue', order, wire', serves, fenced, deleted'⟩ := dispatches
      rw [queue] at queue' order
      rw [wire] at wire'
      rw [deleted] at deleted'
      exact ⟨queue', order, wire', serves, fenced, deleted'⟩
    · have within := bound one
      rw [Tick.new, Nat.zero_add] at within
      exact within
  unfold Ctrl.clockTick Ticked Run.opening
  by_cases fence : 0 < ctrl.numFence
  · rw [if_pos fence, if_pos fence]
    by_cases waiting : ctrl.waits = true
    · rw [if_pos waiting, if_pos waiting]
      exact ⟨ctrl, rfl, rfl, fun other same => same, [], [], .none ctrl, fun _ => Nat.zero_le _⟩
    · rw [if_neg waiting, if_neg waiting]
      exact loops _ rfl rfl rfl
  · rw [if_neg fence, if_neg fence]
    exact loops _ rfl rfl rfl

end Loop
end RevCPU.MemCtrl
