import RevCPU.MemCtrlOrder
/-!
The limits `max_*` and the requests that are outstanding. A tick never sends more than its limit of a
kind, but only the path through the cache asks how many are on their way from the ticks before, and
it asks a counter.
-/
namespace RevCPU.MemCtrl
open Mem MemRefine

section Limits
variable {config : Config} {run : Run}

/-- No more requests of a kind are outstanding than the limit. -/
def Limited (config : Config) (ctrl : Ctrl) : Prop :=
  ∀ lane, outstandingOf ctrl lane ≤ config.max lane

def Cached (config : Config) (op : RevMemOp) : Prop := hasCache config = true ∧ op.isCacheable = true

def kindOf (queue : List RevMemOp) (lane : Lane) : List RevMemOp :=
  queue.filter fun op => op.op.lane == some lane

def demand (config : Config) (ops : List RevMemOp) : Nat :=
  (ops.map fun op => (piecesOf config op).length).sum

/-- A tick can send what it may of a kind. Past the cache these are as many operations as its limit
leaves, and through it the slots are checked by a counter, which has to be right. A mixed queue fits as a
whole. -/
def Spare (config : Config) (tick : Tick) (ctrl : Ctrl) (lane : Lane) : Prop :=
  (∀ op ∈ kindOf ctrl.rqstQ lane, ¬ Cached config op) ∧ outstandingOf ctrl lane +
      min (config.max lane - tick.used lane) (kindOf ctrl.rqstQ lane).length ≤ config.max lane ∨
    (∀ op ∈ kindOf ctrl.rqstQ lane, Cached config op) ∧
      outstandingOf ctrl lane ≤ (ctrl.num lane).toNat ∧ (ctrl.num lane).toNat ≤ config.max lane ∨
    outstandingOf ctrl lane + demand config (kindOf ctrl.rqstQ lane) ≤ config.max lane

/-- At the head of every tick there is room for what it may send. -/
def Roomy (config : Config) (run : Run) : Event → Prop
  | .begin => ∀ lane, Spare config Tick.new run.ctrl lane
  | _ => True

/-- There is still, while the tick runs. -/
def Sparing (config : Config) (run : Run) : Prop :=
  ∀ tick, run.tick = some tick → ∀ lane, Spare config tick run.ctrl lane

theorem kindOf_other {front back : List RevMemOp} {op : RevMemOp} {lane other : Lane}
    (isLane : op.op.lane = some lane) (differs : lane ≠ other) :
    kindOf (front ++ op :: back) other = kindOf (front ++ back) other := by
  simp [kindOf, List.filter_append, isLane, differs]

theorem kindOf_own {front back : List RevMemOp} {op : RevMemOp} {lane : Lane}
    (isLane : op.op.lane = some lane) :
    (kindOf (front ++ op :: back) lane).Perm (op :: kindOf (front ++ back) lane) := by
  simp only [kindOf, List.filter_append, List.filter_cons, isLane, beq_self_eq_true, if_true]
  exact List.perm_middle

-- The slot check, by its numbers.
theorem slots_of_sends {front : List RevMemOp} {op : RevMemOp} {lane : Lane}
    (sized : config.max lane < 2 ^ 64) (isLane : op.op.lane = some lane) (cached : Cached config op)
    (sends : Sends config run.ctrl front op)
    (within : (run.ctrl.num lane).toNat ≤ config.max lane) :
    (piecesOf config op).length ≤ config.max lane - (run.ctrl.num lane).toNat := by
  obtain ⟨-, sent, built⟩ := sends
  unfold Cached at cached
  rw [Ctrl.buildStandardMemRqst, if_pos cached, Ctrl.buildCacheMemRqst, isLane] at built
  dsimp only at built
  rw [piecesOf, if_pos cached, length_cachePieces]
  split at built
  · cases built
  · rename_i fits
    rw [BitVec.toNat_sub_of_le, BitVec.toNat_ofNat, Nat.mod_eq_of_lt sized] at fits
    · exact Nat.le_of_not_lt fits
    · rw [BitVec.le_def, BitVec.toNat_ofNat, Nat.mod_eq_of_lt sized]
      exact within

theorem Spare.limited {tick : Tick} {ctrl : Ctrl} {lane : Lane} (spare : Spare config tick ctrl lane) :
    outstandingOf ctrl lane ≤ config.max lane := by
  rcases spare with ⟨_, room⟩ | ⟨_, counted, within⟩ | room
  · omega
  · exact Nat.le_trans counted within
  · omega

-- The counters of the tick and of the controller go up with what is sent.
theorem Spare.dispatch {tick : Tick} {front back : List RevMemOp} {op : RevMemOp} {lane : Lane}
    (sized : ∀ lane, config.max lane < 2 ^ 64) (taken : Taken config tick run.ctrl front op back)
    (isLane : op.op.lane = some lane) (sends : Sends config run.ctrl front op) {other : Lane}
    (spare : Spare config tick run.ctrl other) :
    Spare config (tick.take op) (sentOff config run.ctrl front op back lane) other := by
  have queue : (sentOff config run.ctrl front op back lane).rqstQ = front ++ back := rfl
  have num : (sentOff config run.ctrl front op back lane).num = Function.update run.ctrl.num lane
      (run.ctrl.num lane + BitVec.ofNat 64 (piecesOf config op).length) := rfl
  unfold Spare at spare ⊢
  rw [outstandingOf_sentOff isLane, queue, num, used_take isLane]
  by_cases mine : lane = other
  · subst mine
    have room := (avail_iff isLane).mp taken.avail
    rw [if_pos rfl, if_pos rfl, Function.update_self]
    rw [taken.queue] at spare
    have perm : (kindOf (front ++ op :: back) lane).Perm (op :: kindOf (front ++ back) lane) :=
      kindOf_own isLane
    rcases spare with ⟨past, fits⟩ | ⟨through, counted, within⟩ | fits
    · left
      have uncached := past op (perm.mem_iff.mpr List.mem_cons_self)
      refine ⟨fun one member => past one (perm.mem_iff.mpr (List.mem_cons_of_mem _ member)), ?_⟩
      unfold Cached at uncached
      rw [perm.length_eq, List.length_cons] at fits
      rw [piecesOf, if_neg uncached, List.length_singleton]
      omega
    · right
      left
      have slots := slots_of_sends (sized lane) isLane (through op (perm.mem_iff.mpr List.mem_cons_self))
        sends within
      have small := sized lane
      have sum : (run.ctrl.num lane + BitVec.ofNat 64 (piecesOf config op).length).toNat =
          (run.ctrl.num lane).toNat + (piecesOf config op).length := by
        rw [BitVec.toNat_add, BitVec.toNat_ofNat, Nat.mod_eq_of_lt (b := 2 ^ 64) (by omega),
          Nat.mod_eq_of_lt (by omega)]
      rw [sum]
      exact ⟨fun one member => through one (perm.mem_iff.mpr (List.mem_cons_of_mem _ member)),
        by omega, by omega⟩
    · right
      right
      unfold demand at fits ⊢
      rw [(perm.map _).sum_eq, List.map_cons, List.sum_cons] at fits
      omega
  · rw [if_neg mine, if_neg mine, Function.update_of_ne (Ne.symm mine), Nat.add_zero, Nat.add_zero]
    rw [taken.queue, kindOf_other isLane mine] at spare
    exact spare

theorem Sparing.step {event : Event} {after : Run} (sized : ∀ lane, config.max lane < 2 ^ 64)
    (sparing : Sparing config run) (sound : Sound run.ctrl) (legal : Legal run event)
    (roomy : Roomy config run event) (stepped : run.step config event = .ok after) :
    Sparing config after := by
  intro next running lane
  rcases running_cases sound legal stepped running with ⟨rfl, rfl, fences, same⟩ |
    ⟨rfl, tick, front, op, back, kind, current, taken, isLane, sends, rfl, same⟩
  · rw [same]
    exact roomy lane
  · rw [same]
    exact (sparing tick current lane).dispatch sized taken isLane sends

theorem Limited.step {event : Event} {after : Run} (sized : ∀ lane, config.max lane < 2 ^ 64)
    (sound : Sound run.ctrl) (limited : Limited config run.ctrl) (sparing : Sparing config run)
    (move : Move config run event after) : Limited config after.ctrl := by
  cases move with
  | refuse | accept | start | idle | fence => exact limited
  | answer id data op created ctrl held answered =>
    intro lane
    have settled := outstandingOf_settle sound held answered.outstanding lane
    have before := limited lane
    dsimp only
    omega
  | dispatch tick front op back lane next running taken isLane sends =>
    exact fun other => ((sparing tick running other).dispatch sized taken isLane sends).limited

theorem limited_sparing (sized : ∀ lane, config.max lane < 2 ^ 64)
    (reached : Reached config (Roomy config) run) : Limited config run.ctrl ∧ Sparing config run := by
  induction reached with
  | start host hazards =>
    refine ⟨fun lane => Nat.zero_le _, ?_⟩
    intro tick running
    cases running
  | step before event legal meets stepped ih =>
    have sound := reached_sound before
    exact ⟨ih.1.step sized sound ih.2 (step_move sound legal stepped),
      ih.2.step sized sound legal meets stepped⟩

/-- In a run whose ticks all begin with room for what they may send, the limits are kept in every state. -/
theorem limits_kept (sized : ∀ lane, config.max lane < 2 ^ 64)
    (reached : Reached config (Roomy config) run) : Limited config run.ctrl :=
  (limited_sparing sized reached).1

def roomyB (config : Config) (run : Run) : Event → Bool
  | .begin => [Lane.read, .write, .flush, .llsc, .readlock, .writeunlock, .custom].all fun lane =>
    decide (outstandingOf run.ctrl lane + min (config.max lane) (kindOf run.ctrl.rqstQ lane).length ≤
      config.max lane)
  | _ => true

theorem roomy_of (run : Run) (event : Event) (passed : roomyB narrow run event = true) :
    Roomy narrow run event := by
  cases event with
  | begin =>
    intro lane
    refine .inl ⟨fun op _ cached => absurd cached.1 (by decide), ?_⟩
    rw [roomyB, List.all_eq_true] at passed
    have fits := passed lane (by cases lane <;> decide)
    exact of_decide_eq_true fits
  | send | respond | next => trivial

-- Two reads wait, of which a tick sends one.
theorem limits_kept_read : ∃ run, Reached narrow (Roomy narrow) run ∧ run.ctrl.requests = [1] ∧
    Limited narrow run.ctrl := by
  have seen : (follow narrow (roomyB narrow) ⟨Ctrl.new (fun _ => 0) (fun _ => false), none, [], []⟩
      [.send (.sendREADRequest 0 16 16 4 0 0 0), .send (.sendREADRequest 0 32 32 4 8 1 0), .begin, .next,
        .next, .respond 0 (fun _ => 0), .begin, .next]).map (fun run => run.ctrl.requests) = some [1] := by
    decide
  obtain ⟨run, reached, observed⟩ := follow_seen _ roomy_of seen
  exact ⟨run, reached, observed, limits_kept (fun _ => (by decide : 1 < 2 ^ 64)) reached⟩

/-- Two reads in two ticks, the first of which is not answered, where the limit is one. -/
theorem reads_pile_up : ¬ ∀ config run, Reached config (fun _ _ => True) run →
    Limited config run.ctrl := by
  intro kept
  have seen : (follow narrow (fun _ _ => true) ⟨Ctrl.new (fun _ => 0) (fun _ => false), none, [], []⟩
      [.send (.sendREADRequest 0 16 16 4 0 0 0), .send (.sendREADRequest 0 32 32 4 8 1 0), .begin,
        .next, .next, .begin, .next]).map (fun run => outstandingOf run.ctrl .read) = some 2 := by decide
  obtain ⟨run, reached, observed⟩ := follow_seen _ (fun _ _ _ => trivial) seen
  have limited := kept narrow run reached .read
  rw [observed] at limited
  exact absurd limited (by decide)

/-- The same asked of the responses: with a cache each comes for a kind whose handler has the counter
of that kind. -/
def RoomyOwn (config : Config) (run : Run) : Event → Prop
  | .respond id data => ownHandler run (.respond id data)
  | .begin => ∀ lane, (∃ op ∈ kindOf run.ctrl.rqstQ lane, ¬ Cached config op) →
      Spare config Tick.new run.ctrl lane
  | _ => True

-- Such a run keeps the counters exact, so they are never above a limit.
theorem roomy_of_own (sized : ∀ lane, config.max lane < 2 ^ 64)
    (reached : Reached config (RoomyOwn config) run) : Reached config (Roomy config) run := by
  induction reached with
  | start host hazards => exact .start host hazards
  | @step run after before event legal meets stepped ih =>
    refine .step ih event legal ?_ stepped
    cases event with
    | send | respond | next => trivial
    | begin =>
      intro lane
      by_cases past : ∃ op ∈ kindOf run.ctrl.rqstQ lane, ¬ Cached config op
      · exact meets lane past
      · have counted : Exact run.ctrl := by
          apply reached_exact (before.mono ?_)
          rintro run event own
          cases event with
          | respond => exact own
          | send | begin | next => trivial
        have limited := (limited_sparing sized ih).1 lane
        have small := sized lane
        refine .inr (.inl ⟨fun op member => by_contra fun other => past ⟨op, member, other⟩, ?_⟩)
        rw [counted lane, BitVec.toNat_ofNat, Nat.mod_eq_of_lt (by omega)]
        exact ⟨Nat.le_refl _, limited⟩

end Limits
end RevCPU.MemCtrl
