import RevCPU.MemCtrlSound
/-!
The counters `num_*`. A builder counts a request under the kind of its operation and a handler takes
it off under the kind of the response, of which there are fewer, so a counter drifts with the first
response to a READLOCK, a WRITEUNLOCK, a LOADLINK or a STORECOND. The sum a fence waits for does not.
-/
namespace RevCPU.MemCtrl
open Mem MemRefine RegFile Atomic

section Count
variable {config : Config} {run : Run}

/-- The requests on their way that were issued for an operation of a kind. -/
def outstandingOf (ctrl : Ctrl) (lane : Lane) : Nat :=
  ctrl.outstanding.countP fun entry => entry.2.op.lane == some lane

/-- Each counter is that number, as a uint64_t. -/
def Exact (ctrl : Ctrl) : Prop := ∀ lane, ctrl.num lane = BitVec.ofNat 64 (outstandingOf ctrl lane)

/-- The response comes for a kind whose handler has the counter of that kind. -/
def ownHandler (run : Run) : Event → Prop
  | .respond id _ => ∀ op, (id, op) ∈ run.ctrl.outstanding →
    op.op = .READ ∨ op.op = .WRITE ∨ op.op = .FLUSH ∨ op.op = .CUSTOM
  | _ => True

theorem outstandingOf_sentOff {front back : List RevMemOp} {op : RevMemOp} {lane : Lane}
    (isLane : op.op.lane = some lane) (other : Lane) :
    outstandingOf (sentOff config run.ctrl front op back lane) other =
      outstandingOf run.ctrl other + if lane = other then (piecesOf config op).length else 0 := by
  simp only [outstandingOf, sentOff, dispatched, List.countP_append, List.countP_map]
  congr 1
  by_cases mine : lane = other
  · rw [if_pos mine, List.countP_eq_length.mpr]
    · rw [List.length_range']
    · intro id member
      simpa [split, isLane] using mine
  · rw [if_neg mine, List.countP_eq_zero]
    intro id member
    simpa [split, isLane] using mine

theorem outstandingOf_settle (sound : Sound run.ctrl) {id : Nat} {op : RevMemOp} {ctrl : Ctrl}
    (held : (id, op) ∈ run.ctrl.outstanding)
    (settled : ctrl.outstanding = run.ctrl.outstanding.filter fun entry => entry.1 != id) (lane : Lane) :
    outstandingOf run.ctrl lane = outstandingOf ctrl lane + if op.op.lane = some lane then 1 else 0 := by
  rw [outstandingOf, (sound.perm held).countP_eq, List.countP_cons, outstandingOf, settled]
  simp

theorem lane_of_answer {op : MemOp} (own : op = .READ ∨ op = .WRITE ∨ op = .FLUSH ∨ op = .CUSTOM) :
    op.lane = some (answerLane op) := by
  rcases own with rfl | rfl | rfl | rfl <;> rfl

theorem own_of_lane {op : MemOp} (same : op.lane = some (answerLane op)) :
    op = .READ ∨ op = .WRITE ∨ op = .FLUSH ∨ op = .CUSTOM := by
  cases op <;> simp [MemOp.lane, answerLane] at same ⊢

theorem ofNat_pred {count : Nat} : BitVec.ofNat 64 (count + 1) + (-1) = BitVec.ofNat 64 count := by
  rw [BitVec.ofNat_add, BitVec.add_assoc]
  simp

-- The steps that are no response add the same number to a counter and to the map.
theorem Exact.step {event : Event} {after : Run} (sound : Sound run.ctrl) (exact' : Exact run.ctrl)
    (move : Move config run event after) : Exact after.ctrl ↔ ownHandler run event := by
  cases move with
  | refuse | accept | start | idle | fence => exact iff_of_true exact' trivial
  | dispatch tick front op back lane next running taken isLane sends =>
    refine iff_of_true ?_ trivial
    intro other
    rw [outstandingOf_sentOff isLane]
    simp only [sentOff, dispatched]
    by_cases mine : lane = other
    · subst mine
      rw [Function.update_self, if_pos rfl, BitVec.ofNat_add, exact' lane]
    · rw [Function.update_of_ne (Ne.symm mine), if_neg mine, Nat.add_zero, exact' other]
  | answer id data op created ctrl held answered =>
    have settled := outstandingOf_settle sound held answered.outstanding
    constructor
    · intro still other held'
      have same : other = op := by
        have found := sound.find held'
        rw [sound.find held] at found
        exact (Option.some.inj found).symm
      subst same
      apply own_of_lane
      -- otherwise the handler's counter went down and its number did not
      by_contra differs
      have counter := still (answerLane other.op)
      rw [answered.num, Function.update_self, exact' (answerLane other.op), settled (answerLane other.op),
        if_neg differs, Nat.add_zero] at counter
      simp at counter
    · intro own lane
      have same := lane_of_answer (own op held)
      rw [answered.num]
      by_cases mine : lane = answerLane op.op
      · subst mine
        rw [Function.update_self, exact' _, settled, if_pos same, ofNat_pred]
      · have other : op.op.lane ≠ some lane := by
          rw [same]
          exact fun equal => mine (Option.some.inj equal).symm
        rw [Function.update_of_ne mine, exact' lane, settled lane, if_neg other, Nat.add_zero]

theorem exact_new (host : Nat → Byte) (hazards : Nat → Bool) : Exact (Ctrl.new host hazards) := by
  intro lane
  rfl

theorem reached_exact (reached : Reached config ownHandler run) : Exact run.ctrl := by
  induction reached with
  | start host hazards => exact exact_new host hazards
  | step before event legal meets stepped ih =>
    have sound := reached_sound before
    exact (ih.step sound (step_move sound legal stepped)).mpr meets

/-- In a run whose responses all come for a READ, a WRITE, a FLUSH or a CUSTOM the counters are exact
and none is taken below zero; the first other response ends that. -/
theorem counters_exact (reached : Reached config ownHandler run) :
    Exact run.ctrl ∧
    (∀ lane, outstandingOf run.ctrl lane < 2 ^ 64 →
      (run.ctrl.num lane).toNat = outstandingOf run.ctrl lane) ∧
    (run.ctrl.outstanding = [] → ∀ lane, run.ctrl.num lane = 0) ∧
    (∀ id op data, (id, op) ∈ run.ctrl.outstanding → ownHandler run (.respond id data) →
      0 < outstandingOf run.ctrl (answerLane op.op)) ∧
    ∀ event after, Legal run event → run.step config event = .ok after →
      (Exact after.ctrl ↔ ownHandler run event) := by
  have sound := reached_sound reached
  have counted := reached_exact reached
  refine ⟨counted, ?_, ?_, ?_, ?_⟩
  · intro lane small
    rw [counted lane, BitVec.toNat_ofNat, Nat.mod_eq_of_lt small]
  · intro empty lane
    rw [counted lane, outstandingOf, empty]
    rfl
  · intro id op data held own
    rw [outstandingOf, List.countP_pos_iff]
    exact ⟨_, held, by simp [lane_of_answer (own op held)]⟩
  · intro event after legal stepped
    exact counted.step sound (step_move sound legal stepped)

def ownHandlerB (run : Run) : Event → Bool
  | .respond id _ => run.ctrl.outstanding.all fun entry =>
    entry.1 != id || [.READ, .WRITE, .FLUSH, .CUSTOM].contains entry.2.op
  | _ => true

theorem ownHandler_of (run : Run) (event : Event) (passed : ownHandlerB run event = true) :
    ownHandler run event := by
  cases event with
  | respond id data =>
    intro op held
    have kind := List.all_eq_true.mp passed _ held
    simpa using kind
  | send call => trivial
  | begin => trivial
  | next => trivial

theorem counters_exact_read : ∃ run, Reached narrow ownHandler run ∧
    (run.ctrl.requests, run.ctrl.deleted) = ([], [0]) ∧ Exact run.ctrl := by
  have seen : (follow narrow ownHandlerB ⟨Ctrl.new (fun _ => 0) (fun _ => false), none, [], []⟩
      [.send (.sendREADRequest 0 16 16 4 0 0 0), .begin, .next, .next, .respond 0 fun _ => 5]).map
        (fun run => (run.ctrl.requests, run.ctrl.deleted)) = some ([], [0]) := by decide
  obtain ⟨run, reached, observed⟩ := follow_seen _ ownHandler_of seen
  exact ⟨run, reached, observed, (counters_exact reached).1⟩

/-- A READLOCK and its ReadResp. -/
theorem counter_wraps_readlock : ∃ run, Reached narrow (fun _ _ => True) run ∧
    (run.ctrl.requests, run.ctrl.num .read, run.ctrl.num .readlock) = ([], -1, 1) ∧
      ¬ Exact run.ctrl := by
  have seen : (follow narrow (fun _ _ => true) ⟨Ctrl.new (fun _ => 0) (fun _ => false), none, [], []⟩
      [.send (.sendREADLOCKRequest 0 16 16 4 0 0 0), .begin, .next, .next, .respond 0 fun _ => 5]).map
        (fun run => (run.ctrl.requests, run.ctrl.num .read, run.ctrl.num .readlock)) =
      some ([], -1, 1) := by decide
  obtain ⟨run, reached, observed⟩ := follow_seen _ (fun _ _ _ => trivial) seen
  refine ⟨run, reached, observed, ?_⟩
  intro counted
  have sound := reached_sound reached
  have none : run.ctrl.requests = [] := (Prod.mk.inj observed).1
  rw [sound.keys, List.map_eq_nil_iff] at none
  have zero := counted .read
  rw [outstandingOf, none, (Prod.mk.inj (Prod.mk.inj observed).2).1] at zero
  exact absurd zero (by decide)

end Count

section Busy
variable {config : Config} {run : Run}

/-- The sum clockTick compares with 0 while a fence is pending. -/
def busy (num : Lane → BitVec 64) : BitVec 64 :=
  num .read + num .write + num .llsc + num .readlock + num .writeunlock + num .custom

def outstandingNonFlush (ctrl : Ctrl) : Nat :=
  ctrl.outstanding.countP fun entry => entry.2.op != .FLUSH

theorem busy_update (num : Lane → BitVec 64) (lane : Lane) (change : BitVec 64) :
    busy (Function.update num lane (num lane + change)) =
      busy num + if lane = .flush then 0 else change := by
  cases lane <;> simp [busy, Function.update] <;> ac_rfl

theorem answerLane_flush {op : MemOp} (real : op ≠ .FENCE) : answerLane op = .flush ↔ op = .FLUSH := by
  cases op <;> simp [answerLane]

theorem lane_flush {op : MemOp} {lane : Lane} (isLane : op.lane = some lane) :
    lane = .flush ↔ op = .FLUSH := by
  cases op <;> simp [MemOp.lane] at isLane <;> simp [← isLane]
-- A handler takes a request off the sum that its builder added, under whatever name.
theorem Move.busy {event : Event} {after : Run} (sound : Sound run.ctrl)
    (summed : busy run.ctrl.num = BitVec.ofNat 64 (outstandingNonFlush run.ctrl))
    (move : Move config run event after) :
    busy after.ctrl.num = BitVec.ofNat 64 (outstandingNonFlush after.ctrl) := by
  cases move with
  | refuse | accept | start | idle | fence => exact summed
  | dispatch tick front op back lane next running taken isLane sends =>
    have count : outstandingNonFlush (sentOff config run.ctrl front op back lane) =
        outstandingNonFlush run.ctrl + if op.op = .FLUSH then 0 else (piecesOf config op).length := by
      simp only [outstandingNonFlush, sentOff, dispatched, List.countP_append, List.countP_map]
      congr 1
      by_cases flush : op.op = .FLUSH
      · rw [if_pos flush, List.countP_eq_zero]
        simp [split, flush]
      · rw [if_neg flush, List.countP_eq_length.mpr]
        · rw [List.length_range']
        · simp [split, flush]
    rw [count]
    simp only [sentOff, dispatched]
    rw [busy_update, summed, BitVec.ofNat_add]
    by_cases flush : op.op = .FLUSH
    · rw [if_pos flush, if_pos ((lane_flush isLane).mpr flush)]
      rfl
    · rw [if_neg flush, if_neg fun same => flush ((lane_flush isLane).mp same)]
  | answer id data op created ctrl held answered =>
    have count : outstandingNonFlush run.ctrl =
        outstandingNonFlush ctrl + if op.op = .FLUSH then 0 else 1 := by
      rw [outstandingNonFlush, (sound.perm held).countP_eq, List.countP_cons, outstandingNonFlush,
        answered.outstanding]
      by_cases flush : op.op = .FLUSH
      · simp [flush]
      · simp [flush]
    have real : op.op ≠ .FENCE := sound.real _ held
    change MemCtrl.busy ctrl.num = _
    rw [answered.num, busy_update, summed, count]
    by_cases flush : op.op = .FLUSH
    · rw [if_pos flush, if_pos ((answerLane_flush real).mpr flush)]
      simp
    · rw [if_neg flush, if_neg fun same => flush ((answerLane_flush real).mp same), ofNat_pred]

theorem reached_busy {good : Run → Event → Prop} (reached : Reached config good run) :
    busy run.ctrl.num = BitVec.ofNat 64 (outstandingNonFlush run.ctrl) := by
  induction reached with
  | start host hazards => rfl
  | step before event legal meets stepped ih =>
    have sound := reached_sound before
    exact (step_move sound legal stepped).busy sound ih

end Busy
end RevCPU.MemCtrl
