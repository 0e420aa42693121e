import RevCPU.MemCtrlCount
/-!
Order on the interface. The scan of processNextRqst passes over operations whose kind is used up in the
tick, so a later operation of the same hart can leave before an earlier one on the same bytes, and a
FENCE can be taken from behind operations it should wait for.
-/
namespace RevCPU.MemCtrl
open Mem MemRefine RegFile Atomic

section Scan
variable {config : Config} {related : RevMemOp → RevMemOp → Prop} {tick : Tick} {run after : Run}
  {front back : List RevMemOp} {op : RevMemOp} {lane : Lane}

/-- How many operations of a list are of a kind. -/
def ofLane (ops : List RevMemOp) (lane : Lane) : Nat := ops.countP fun op => op.op.lane == some lane

/-- An operation behind `front` is within the limit of its kind in this tick. -/
def Within (config : Config) (tick : Tick) (front : List RevMemOp) (op : RevMemOp) : Prop :=
  ∀ lane, op.op.lane = some lane → tick.used lane + ofLane front lane < config.max lane

/-- Where an operation is within its limit and behind no FENCE, so are those in front that it is to follow. -/
def Untangled (config : Config) (related : RevMemOp → RevMemOp → Prop) (tick : Tick)
    (queue : List RevMemOp) : Prop :=
  ∀ front earlier middle op back, queue = front ++ earlier :: (middle ++ op :: back) → related earlier op →
    (∀ other ∈ front ++ earlier :: middle, other.op ≠ .FENCE) →
    Within config tick (front ++ earlier :: middle) op → Within config tick front earlier

/-- What is left to a tick is untangled. -/
def Tidy (config : Config) (related : RevMemOp → RevMemOp → Prop) (run : Run) : Prop :=
  ∀ tick, run.tick = some tick → Untangled config related tick run.ctrl.rqstQ

theorem avail_iff (isLane : op.op.lane = some lane) :
    tick.avail config op = true ↔ tick.used lane < config.max lane := by
  rw [Tick.avail, isLane]
  exact decide_eq_true_iff

theorem not_within (passed : tick.avail config op = false) : ¬ Within config tick front op := by
  intro within
  cases isLane : op.op.lane with
  | none =>
    rw [Tick.avail, isLane] at passed
    cases passed
  | some lane =>
    have bound := within lane isLane
    rw [Bool.eq_false_iff, Ne, avail_iff isLane] at passed
    omega

theorem used_take (isLane : op.op.lane = some lane) (other : Lane) :
    (tick.take op).used other = tick.used other + (if lane = other then 1 else 0) := by
  rw [Tick.take, isLane]
  by_cases same : lane = other
  · subst same
    simp
  · simp [same, Function.update_of_ne (Ne.symm same)]

theorem ofLane_split (isLane : op.op.lane = some lane) (other : Lane) :
    ofLane (front ++ op :: back) other = ofLane (front ++ back) other + (if lane = other then 1 else 0) := by
  simp only [ofLane, List.countP_append, List.countP_cons, isLane, beq_iff_eq, Option.some.injEq]
  omega

theorem within_take (isLane : op.op.lane = some lane) (other : RevMemOp) :
    Within config (tick.take op) (front ++ back) other ↔ Within config tick (front ++ op :: back) other := by
  unfold Within
  refine forall_congr' fun kind => imp_congr_right fun _ => ?_
  rw [used_take isLane, ofLane_split isLane, Nat.add_right_comm, Nat.add_assoc]

theorem not_within_take (isLane : op.op.lane = some lane) {other : RevMemOp} {ahead : List RevMemOp}
    (passed : tick.avail config other = false) : ¬ Within config (tick.take op) ahead other := by
  intro within
  have before : ¬ Within config tick ahead other := not_within passed
  apply before
  intro kind isKind
  have bound := within kind isKind
  rw [used_take isLane] at bound
  omega

theorem split_append {α : Type} {first second earlier later : List α} {item : α}
    (parts : first ++ second = earlier ++ item :: later) :
    (∃ middle, first = earlier ++ item :: middle ∧ later = middle ++ second) ∨
      ∃ extra, earlier = first ++ extra ∧ second = extra ++ item :: later := by
  rcases List.append_eq_append_iff.mp parts with ⟨extra, early, rest⟩ | ⟨extra, old, rest⟩
  · exact .inr ⟨extra, early, rest⟩
  · cases extra with
    | nil => exact .inr ⟨[], by simpa using old.symm, by simpa using rest.symm⟩
    | cons head middle =>
      rw [List.cons_append, List.cons.injEq] at rest
      obtain ⟨rfl, tail⟩ := rest
      exact .inl ⟨middle, old, tail⟩

theorem Untangled.take (untangled : Untangled config related tick run.ctrl.rqstQ)
    (taken : Taken config tick run.ctrl front op back) (isLane : op.op.lane = some lane) :
    Untangled config related (tick.take op) (front ++ back) := by
  have real : op.op ≠ .FENCE := by
    intro fence
    rw [fence] at isLane
    cases isLane
  intro ahead earlier middle later behind parts joined fenceless within
  rcases split_append parts with ⟨extra, split, rest⟩ | ⟨extra, rfl, rest⟩
  · have saturated : tick.avail config earlier = false := taken.passed earlier (by simp [split])
    rcases split_append rest.symm with ⟨more, passed, _⟩ | ⟨more, rfl, tail⟩
    · -- the later one was passed over too
      have member : later ∈ front := by simp [split, passed]
      exact absurd within (not_within_take isLane (taken.passed later member))
    · -- the earlier one was passed over, with what is taken in between
      refine absurd (untangled ahead earlier (extra ++ op :: more) later behind ?_ joined ?_ ?_)
        (not_within saturated)
      · rw [taken.queue, split, tail]
        simp
      · intro other member
        rw [← List.cons_append, ← List.append_assoc, ← split, List.mem_append, List.mem_cons] at member
        rcases member with first | rfl | second
        · rw [split] at first
          exact fenceless other (by simp only [List.mem_append, List.mem_cons] at first ⊢; tauto)
        · exact real
        · exact fenceless other (by simp [second])
      · rw [← List.cons_append, ← List.append_assoc, ← split] at within ⊢
        exact (within_take isLane later).mp within
  · -- both stand behind what is taken
    rw [within_take isLane]
    refine untangled (front ++ op :: extra) earlier middle later behind ?_ joined ?_ ?_
    · rw [taken.queue, rest]
      simp
    · intro other member
      simp only [List.mem_append, List.mem_cons] at member
      rcases member with (first | rfl | second) | third
      · exact fenceless other (by simp [first])
      · exact real
      · exact fenceless other (by simp [second])
      · exact fenceless other (by simp only [List.mem_append, List.mem_cons]; exact .inr third)
    · rw [List.append_assoc, within_take isLane] at within
      rw [List.append_assoc, List.cons_append]
      exact within

theorem Untangled.passes (untangled : Untangled config related tick run.ctrl.rqstQ)
    (taken : Taken config tick run.ctrl front op back) : ∀ earlier ∈ front, ¬ related earlier op := by
  intro earlier member joined
  obtain ⟨ahead, middle, rfl⟩ := List.append_of_mem member
  have queue : run.ctrl.rqstQ = ahead ++ earlier :: (middle ++ op :: back) := by
    rw [taken.queue, List.append_assoc, List.cons_append]
  refine not_within (taken.passed earlier member) (untangled _ _ _ _ _ queue joined ?_ ?_)
  · intro other passed fence
    have saturated := taken.passed other passed
    rw [Tick.avail, fence] at saturated
    cases saturated
  · intro kind isKind
    have none : ofLane (ahead ++ earlier :: middle) kind = 0 := by
      rw [ofLane, List.countP_eq_zero]
      intro other passed same
      have saturated := taken.passed other passed
      rw [Bool.eq_false_iff, Ne, avail_iff (beq_iff_eq.mp same)] at saturated
      exact saturated ((avail_iff isKind).mp taken.avail)
    rw [none]
    exact (avail_iff isKind).mp taken.avail

theorem running_cases {event : Event} {next : Tick} (sound : Sound run.ctrl) (legal : Legal run event)
    (stepped : run.step config event = .ok after) (running : after.tick = some next) :
    (event = .begin ∧ next = Tick.new ∧ ∃ fences, after.ctrl = { run.ctrl with numFence := fences }) ∨
    event = .next ∧ ∃ tick front op back lane, run.tick = some tick ∧
      Taken config tick run.ctrl front op back ∧ op.op.lane = some lane ∧
      Sends config run.ctrl front op ∧ next = tick.take op ∧
      after.ctrl = sentOff config run.ctrl front op back lane := by
  cases event with
  | send call =>
    cases stepped
    exact absurd (running.symm.trans legal) (by simp)
  | respond id data =>
    rw [Run.step] at stepped
    split at stepped
    · cases stepped
    · cases stepped
      exact absurd (running.symm.trans legal.1) (by simp)
  | begin =>
    cases stepped
    obtain ⟨fences, tick, opened, opening⟩ := opening_cases run.ctrl
    rw [opened] at running ⊢
    rcases opening with ⟨none, _⟩ | ⟨new, _⟩
    · exact absurd (running.symm.trans none) (by simp)
    · exact .inl ⟨rfl, Option.some.inj (running.symm.trans new), fences, rfl⟩
  | next =>
    obtain ⟨tick, current⟩ := Option.ne_none_iff_exists'.mp legal
    simp only [Run.step, current] at stepped
    cases ran : run.ctrl.processNextRqst config tick with
    | error fault =>
      rw [ran] at stepped
      cases stepped
    | ok result =>
      obtain ⟨last, ctrl⟩ := result
      rw [ran] at stepped
      cases stepped
      dsimp only at running
      split at running
      · cases running
      · rename_i more
        cases running
        rcases processNextRqst_cases sound.whole sound.fresh ran with
          ⟨_, full⟩ | ⟨_, _, _, _, _, _, full⟩ | ⟨front, op, back, lane, taken, isLane, sends, rfl, rfl⟩
        · exact absurd full more
        · exact absurd full more
        · exact .inr ⟨rfl, tick, front, op, back, lane, current, taken, isLane, sends, rfl, rfl⟩

theorem Tidy.step {event : Event} (tidy : Tidy config related run) (sound : Sound run.ctrl)
    (legal : Legal run event)
    (meets : event = .begin → Untangled config related Tick.new run.ctrl.rqstQ)
    (stepped : run.step config event = .ok after) : Tidy config related after := by
  intro next running
  rcases running_cases sound legal stepped running with ⟨rfl, rfl, fences, same⟩ |
    ⟨rfl, tick, front, op, back, lane, current, taken, isLane, sends, rfl, same⟩
  · rw [same]
    exact meets rfl
  · rw [same]
    exact (tidy tick current).take taken isLane

end Scan

section Program
variable {config : Config} {run : Run}

/-- One hart, common bytes, and a write among the two. -/
def Conflict (first second : RevMemOp) : Prop :=
  first.hart = second.hart ∧
    (first.addr < second.addr + second.size ∧ second.addr < first.addr + first.size) ∧
    (first.op = .WRITE ∨ second.op = .WRITE)

instance (first second : RevMemOp) : Decidable (Conflict first second) :=
  inferInstanceAs (Decidable (_ ∧ _ ∧ _))

/-- `late` was enqueued first and conflicts with `early`. -/
def Overtaken (early late : RevMemOp) : Prop := late.ptr < early.ptr ∧ Conflict late early

/-- Nothing on the interface has overtaken a request behind it or an operation still queued. -/
structure InOrder (ctrl : Ctrl) : Prop where
  wire : ctrl.wire.Pairwise fun early late => ¬ Overtaken early.op late.op
  queue : ∀ request ∈ ctrl.wire, ∀ op ∈ ctrl.rqstQ, ¬ Overtaken request.op op

/-- At the head of a tick no kind is used up in front of an operation that conflicts with what follows. -/
def untangledTicks (config : Config) (run : Run) : Event → Prop
  | .begin => Untangled config Conflict Tick.new run.ctrl.rqstQ
  | _ => True

-- A larger number cannot be overtaken.
theorem not_overtaken {early late : RevMemOp} (after : early.ptr ≤ late.ptr) : ¬ Overtaken early late :=
  fun overtaken => Nat.not_lt.mpr after overtaken.1

theorem InOrder.grow {ctrl after : Ctrl} (ordered : InOrder ctrl) (sound : Sound ctrl)
    {created : List RevMemOp} (wire : after.wire = ctrl.wire) (queue : after.rqstQ = ctrl.rqstQ ++ created)
    (new : ∀ op ∈ created, op.ptr = ctrl.nextPtr) : InOrder after where
  wire := by
    rw [wire]
    exact ordered.wire
  queue := by
    intro request sent op member
    rw [wire] at sent
    rw [queue] at member
    rcases List.mem_append.mp member with old | fresh
    · exact ordered.queue request sent op old
    · apply not_overtaken
      rw [new op fresh]
      exact Nat.le_of_lt (sound.sent request sent).1

theorem InOrder.fenced {front back : List RevMemOp} {op : RevMemOp} (ordered : InOrder run.ctrl)
    (queue : run.ctrl.rqstQ = front ++ op :: back) : InOrder (fenced run.ctrl front op back) where
  wire := ordered.wire
  queue := fun request sent other waiting =>
    ordered.queue request sent other ((sublist_taken queue).subset waiting)

-- The operation is sent as at least one request.
theorem sentOff_wire (config : Config) (ctrl : Ctrl) (front back : List RevMemOp) (op : RevMemOp)
    (lane : Lane) :
    ∃ request, request.op = split config op ∧
      request ∈ (sentOff config ctrl front op back lane).wire ∧
      (sentOff config ctrl front op back lane).wire ≠ ctrl.wire := by
  have nonempty : piecesOf config op ≠ [] := piecesOf_ne_nil op
  obtain ⟨⟨addr, size⟩, rest, pieces⟩ := List.exists_cons_of_ne_nil nonempty
  simp only [MemCtrl.sentOff, dispatched, pieces, wireOf]
  refine ⟨_, rfl, List.mem_append_right _ (List.mem_cons_self ..), ?_⟩
  simp

theorem InOrder.sentOff {front back : List RevMemOp} {op : RevMemOp} {lane : Lane}
    (ordered : InOrder run.ctrl) (sound : Sound run.ctrl)
    (queue : run.ctrl.rqstQ = front ++ op :: back) :
    InOrder (sentOff config run.ctrl front op back lane) ↔ ∀ earlier ∈ front, ¬ Conflict earlier op := by
  have member : op ∈ run.ctrl.rqstQ := by simp [queue]
  have ahead := (sound.front_lt queue).1
  have behind := (sound.front_lt queue).2
  constructor
  · intro after earlier passed conflict
    obtain ⟨request, same, sent, _⟩ := sentOff_wire config run.ctrl front back op lane
    have overtaken : Overtaken request.op earlier := by
      rw [same]
      exact ⟨ahead earlier passed, conflict⟩
    exact after.queue request sent earlier (List.mem_append_left _ passed) overtaken
  · intro free
    constructor
    · simp only [MemCtrl.sentOff, dispatched]
      rw [List.pairwise_append]
      refine ⟨ordered.wire, ?_, ?_⟩
      · apply List.pairwise_of_forall_mem_list
        intro early first late second
        rw [(wireOf_mem first).1, (wireOf_mem second).1]
        exact not_overtaken (Nat.le_refl _)
      · intro early old late new
        rw [(wireOf_mem new).1]
        exact ordered.queue early old op member
    · intro request sent other waiting
      rcases List.mem_append.mp sent with old | new
      · exact ordered.queue request old other ((sublist_taken queue).subset waiting)
      · rw [(wireOf_mem new).1]
        rcases List.mem_append.mp waiting with passed | later
        · exact fun overtaken => free other passed overtaken.2
        · exact not_overtaken (Nat.le_of_lt (behind other later))

theorem Taken.span {tick : Tick} {ctrl : Ctrl} {front back : List RevMemOp} {op : RevMemOp}
    (taken : Taken config tick ctrl front op back) :
    (ctrl.rqstQ.span fun op => !tick.avail config op) = (front, op :: back) := by
  have passed : ∀ earlier ∈ front, (!tick.avail config earlier) = true := by
    intro earlier member
    rw [taken.passed earlier member]
    rfl
  rw [List.span_eq_takeWhile_dropWhile, taken.queue, List.takeWhile_append_of_pos passed,
    List.dropWhile_append_of_pos passed]
  simp [taken.avail]

theorem Taken.unique {tick : Tick} {ctrl : Ctrl} {front front' back back' : List RevMemOp}
    {op op' : RevMemOp} (taken : Taken config tick ctrl front op back)
    (taken' : Taken config tick ctrl front' op' back') : front = front' ∧ op = op' ∧ back = back' := by
  have same := taken.span.symm.trans taken'.span
  rw [Prod.mk.injEq, List.cons.injEq] at same
  exact same

theorem InOrder.step {event : Event} {after : Run} (ordered : InOrder run.ctrl) (sound : Sound run.ctrl)
    (tidy : Tidy config Conflict run) (move : Move config run event after) : InOrder after.ctrl := by
  cases move with
  | refuse | idle => exact ordered
  | start fences tick opening => exact ⟨ordered.wire, ordered.queue⟩
  | accept call accepts hazards =>
    have grown : InOrder (called run.ctrl call hazards) := by
      refine ordered.grow sound rfl rfl ?_
      intro op member
      rw [List.mem_singleton.mp member]
    exact grown
  | answer id data op created ctrl held answered =>
    apply ordered.grow sound answered.wire answered.rqstQ
    intro write member
    cases closes : closesAMO run.ctrl op with
    | false =>
      rw [(answered.quiet closes).1] at member
      cases member
    | true =>
      obtain ⟨_, target, host, _, rfl, _⟩ := answered.modifies closes
      rw [List.mem_singleton.mp member]
      rfl
  | fence tick front op back running taken kind =>
    exact ordered.fenced taken.queue
  | dispatch tick front op back lane next running taken isLane sends =>
    exact (ordered.sentOff sound taken.queue).mpr ((tidy tick running).passes taken)

theorem reached_inOrder (reached : Reached config (untangledTicks config) run) :
    InOrder run.ctrl ∧ Tidy config Conflict run := by
  induction reached with
  | start host hazards =>
    refine ⟨by constructor <;> simp [Ctrl.new], ?_⟩
    intro tick running
    cases running
  | step before event legal meets stepped ih =>
    have sound := reached_sound before
    refine ⟨ih.1.step sound ih.2 (step_move sound legal stepped), ih.2.step sound legal ?_ stepped⟩
    rintro rfl
    exact meets

/-- In a run whose ticks all begin untangled, no request is sent before all of an earlier conflicting
operation. -/
theorem same_hart_order (reached : Reached config (untangledTicks config) run) : InOrder run.ctrl :=
  (reached_inOrder reached).1

/-- What a turn of the loop is about to pick, with what it passes over. -/
def picks (config : Config) (run : Run) : Option (List RevMemOp × RevMemOp × List RevMemOp) :=
  match run.tick with
  | none => none
  | some tick =>
    match run.ctrl.rqstQ.span fun op => !tick.avail config op with
    | (_, []) => none
    | (front, op :: back) => some (front, op, back)

theorem picks_of_taken {tick : Tick} {front back : List RevMemOp} {op : RevMemOp}
    (running : run.tick = some tick) (taken : Taken config tick run.ctrl front op back) :
    picks config run = some (front, op, back) := by
  simp only [picks, running, taken.span]

def withinB (config : Config) (front : List RevMemOp) (op : RevMemOp) : Bool :=
  match op.op.lane with
  | none => true
  | some lane => decide (ofLane front lane < config.max lane)

theorem withinB_iff {front : List RevMemOp} {op : RevMemOp} :
    withinB config front op = true ↔ Within config Tick.new front op := by
  unfold withinB Within
  cases op.op.lane with
  | none => simp
  | some lane => simp [Tick.new]

/-- Every pair of the queue by its two places. -/
def untangledB (config : Config) (run : Run) : Event → Bool
  | .begin =>
    let queue := run.ctrl.rqstQ
    (List.range queue.length).all fun second => (List.range second).all fun first =>
      match queue[first]?, queue[second]? with
      | some earlier, some op => decide (¬ Conflict earlier op) || !withinB config (queue.take second) op ||
          withinB config (queue.take first) earlier
      | _, _ => true
  | _ => true

theorem untangledB_of (run : Run) (event : Event) (passed : untangledB config run event = true) :
    untangledTicks config run event := by
  cases event with
  | begin =>
    intro front earlier middle op back queue conflict _ within
    simp only [untangledB, queue, List.all_eq_true, List.mem_range] at passed
    have place : (front ++ earlier :: middle).length = front.length + 1 + middle.length := by
      simp only [List.length_append, List.length_cons]
      omega
    have whole : front ++ earlier :: (middle ++ op :: back) = (front ++ earlier :: middle) ++ op :: back := by
      simp
    have found := passed (front ++ earlier :: middle).length (by rw [whole]; simp) front.length (by omega)
    have second :
        (front ++ earlier :: (middle ++ op :: back))[(front ++ earlier :: middle).length]? = some op := by
      rw [whole, List.getElem?_append_right (Nat.le_refl _), Nat.sub_self]
      rfl
    have first : (front ++ earlier :: (middle ++ op :: back))[front.length]? = some earlier := by
      rw [List.getElem?_append_right (Nat.le_refl _), Nat.sub_self]
      rfl
    rw [first, second, whole, List.take_left] at found
    rw [← whole, List.take_left] at found
    simp only [conflict, not_true, decide_false, Bool.false_or, Bool.or_eq_true, Bool.not_eq_true',
      withinB_iff] at found
    rcases found with beyond | inside
    · rw [Bool.eq_false_iff, Ne, withinB_iff] at beyond
      exact absurd within beyond
    · exact inside
  | send call => trivial
  | respond id data => trivial
  | next => trivial

-- The store to the first word passes over the second load, whose kind is used up.
theorem same_hart_order_passed : ∃ run, Reached narrow (untangledTicks narrow) run ∧
    (run.ctrl.wire.map fun request => request.op.ptr) = [0, 2, 1] ∧ InOrder run.ctrl := by
  have seen : (follow narrow (untangledB narrow) ⟨Ctrl.new (fun _ => 0) (fun _ => false), none, [], []⟩
      [.send (.sendREADRequest 0 0 0 4 0 0 0), .send (.sendREADRequest 0 8 8 4 4 1 0),
        .send (.sendWRITERequest 0 0 0 4 (fun _ => 7) 0), .begin, .next, .next, .begin, .next]).map
        (fun run => run.ctrl.wire.map fun request => request.op.ptr) = some [0, 2, 1] := by decide
  obtain ⟨run, reached, observed⟩ := follow_seen _ untangledB_of seen
  exact ⟨run, reached, observed, same_hart_order reached⟩

/-- Loads of the words at 0 and 8, then a store to the word at 8. -/
def loadLoadStore : List Event :=
  [.send (.sendREADRequest 0 0 0 4 0 0 0), .send (.sendREADRequest 0 8 8 4 4 1 0),
    .send (.sendWRITERequest 0 8 8 4 (fun _ => 7) 0), .begin, .next, .next]

theorem store_overtakes_load : ∃ run, Reached narrow (fun _ _ => True) run ∧
    (run.ctrl.wire.map fun request => request.op.ptr, run.ctrl.rqstQ.map RevMemOp.ptr) =
      ([0, 2], [1]) ∧ ¬ InOrder run.ctrl := by
  have seen : (follow narrow (fun _ _ => true) ⟨Ctrl.new (fun _ => 0) (fun _ => false), none, [], []⟩
      loadLoadStore).map (fun run => ((run.ctrl.wire.map fun request => request.op.ptr,
        run.ctrl.rqstQ.map RevMemOp.ptr), run.ctrl.wire.any fun request => run.ctrl.rqstQ.any fun op =>
          decide (op.ptr < request.op.ptr ∧ Conflict op request.op))) =
      some (([0, 2], [1]), true) := by decide
  obtain ⟨run, reached, observed⟩ := follow_seen _ (fun _ _ _ => trivial) seen
  rw [Prod.mk.injEq] at observed
  refine ⟨run, reached, observed.1, ?_⟩
  intro ordered
  obtain ⟨request, sent, found⟩ := List.any_eq_true.mp observed.2
  obtain ⟨op, waiting, overtaken⟩ := List.any_eq_true.mp found
  have hit := of_decide_eq_true overtaken
  exact ordered.queue request sent op waiting hit

end Program
end RevCPU.MemCtrl
