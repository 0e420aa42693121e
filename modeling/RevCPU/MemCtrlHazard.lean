import RevCPU.MemCtrlAmo
import RevCPU.MemCtrlHost
/-!
Hazard cells and the pipelines that own them. RevProc makes a cell for every instruction it issues and
deletes it as the instruction retires; in between the memory operations of the instruction refer to it.
The READ of an AMO clears the cell that its WRITE carries on.
-/
namespace RevCPU.MemCtrl
open Mem MemRefine RegFile Atomic

/-- An instruction in a pipeline: its hazard cell and what is left of its cost. -/
structure Slot where
  cell : Nat
  cost : BitVec 32

/-- The controller and the pipelines of the cores that use it. A cell is not handed out again. -/
structure Cores where
  run : Run
  pipeline : Nat → List Slot
  released : List Nat

inductive CoreEvent where
  | push (core cell : Nat) (cost : BitVec 32)
  | retire (core : Nat)
  | memory (event : Event)

namespace Cores

/-- createLoadHazard and the entry of the new instruction. -/
def createLoadHazard (cores : Cores) (core cell : Nat) (cost : BitVec 32) : Cores :=
  { cores with
      run := { cores.run with ctrl := cores.run.ctrl.setHazard cell false }
      pipeline := Function.update cores.pipeline core (cores.pipeline core ++ [⟨cell, cost⟩]) }

-- An instruction that cannot retire has its cost back.
def retire (cores : Cores) (core : Nat) : Cores :=
  match cores.pipeline core with
  | [] => cores
  | front :: rest =>
    if 0 < front.cost then
      let lowered := front.cost - 1
      if lowered = 0 ∧ cores.run.ctrl.hazards front.cell = false then
        { cores with
            pipeline := Function.update cores.pipeline core rest
            released := cores.released ++ [front.cell] }
      else
        { cores with
            pipeline := Function.update cores.pipeline core ({ front with cost := lowered + 1 } :: rest) }
    else cores

def step (config : Config) (cores : Cores) : CoreEvent → Except Fault Cores
  | .push core cell cost => .ok (cores.createLoadHazard core cell cost)
  | .retire core => .ok (cores.retire core)
  | .memory event =>
    match cores.run.step config event with
    | .error fault => .error fault
    | .ok run => .ok { cores with run := run }

def cells (cores : Cores) (core : Nat) : List Nat := (cores.pipeline core).map Slot.cell

/-- The cell belongs to an instruction in a pipeline. -/
def Owns (cores : Cores) (cell : Nat) : Prop := ∃ core, cell ∈ cores.cells core

/-- An instruction hands over its own cell while it is executed, as the last one of its pipeline. Other
cells than those of the pipelines are never the ones of an AMO. -/
def Hands (cores : Cores) (call : Call) : Prop :=
  ∀ cell, call.op.hazard = some cell →
    (∃ core, (cores.cells core).getLast? = some cell) ∨
      call.isAMO = false ∧ ¬ cores.Owns cell ∧ cell ∉ cores.released

def Legal (cores : Cores) : CoreEvent → Prop
  | .push _ cell _ => ¬ cores.Owns cell ∧ cell ∉ cores.released ∧
    ∀ op, Live cores.run.ctrl op → op.hazard ≠ some cell
  | .retire _ => True
  | .memory event => MemCtrl.Legal cores.run event ∧
    match event with
    | .send call => cores.Hands call
    | _ => True

/-- The runs whose steps all meet a condition. -/
inductive Reached (config : Config) (good : Cores → CoreEvent → Prop) : Cores → Prop
  | start (host : Nat → Byte) (hazards : Nat → Bool) :
    Reached config good ⟨⟨Ctrl.new host hazards, none, [], []⟩, fun _ => [], []⟩
  | step {cores after : Cores} (before : Reached config good cores) (event : CoreEvent)
    (legal : cores.Legal event) (meets : good cores event) (stepped : cores.step config event = .ok after) :
    Reached config good after

/-- A response that completes an operation completes all that its hazard cell stands for: no other
operation carries the cell, and the operation is not the READ of an AMO. -/
def Sole (cores : Cores) : CoreEvent → Prop
  | .memory (.respond id _) => ∀ op, (id, op) ∈ cores.run.ctrl.outstanding →
    cores.run.ctrl.isLast op = true → ∀ cell, op.hazard = some cell →
      closesAMO cores.run.ctrl op = false ∧
        ∀ other, Live cores.run.ctrl other → other.ptr ≠ op.ptr → other.hazard ≠ some cell
  | _ => True

end Cores

/-- The READ of an AMO or its WRITE is not complete. -/
def Unfinished (run : Run) (ptr : Nat) : Prop :=
  ptr ∉ run.ctrl.deleted ∨ ∃ write, (ptr, write) ∈ run.writes ∧ write ∉ run.ctrl.deleted

/-- The hazard of an AMO is set, and its instruction in the pipeline, up to the response to its WRITE;
and no operation refers to a cell that was released. -/
structure Covered (cores : Cores) : Prop where
  amo : ∀ ptr call, (ptr, call) ∈ cores.run.accepted → call.isAMO = true → Unfinished cores.run ptr →
    ∃ cell, call.op.hazard = some cell ∧ cores.run.ctrl.hazards cell = true ∧ cores.Owns cell
  cells : ∀ op, Live cores.run.ctrl op → ∀ cell, op.hazard = some cell → cell ∉ cores.released

/-- Every operation waits with its hazard set. -/
def Carried (ctrl : Ctrl) : Prop :=
  ∀ op, Live ctrl op → ∀ cell, op.hazard = some cell → ctrl.hazards cell = true

section Live
variable {config : Config} {run : Run} {op : RevMemOp} {cell : Nat}

theorem Call.amo_hazard {call : Call} (amo : call.isAMO = true) : ∃ cell, call.op.hazard = some cell := by
  cases call <;> first | exact ⟨_, rfl⟩ | cases amo

theorem Traced.live_origin (traced : Traced run) (sound : Sound run.ctrl) (live : Live run.ctrl op) :
    Origin run op := by
  rcases live with waits | ⟨id, held⟩
  · exact traced.queue op waits
  · exact traced.held_origin sound held

-- Only reads and the WRITEs of AMOs carry a hazard.
theorem Origin.answered_lane (origin : Origin run op) (awaited : op.hazard = some cell) :
    answerLane op.op = .read ∨ answerLane op.op = .write := by
  rcases origin with ⟨call, -, shape⟩ | ⟨read, call, -, -, -, shape⟩
  · rw [shape] at awaited ⊢
    cases call <;> first | exact .inl rfl | cases awaited
  · right
    rw [shape]
    rfl

theorem unfinished_live (traced : Traced run) (sound : Sound run.ctrl) {ptr : Nat} {call : Call}
    (accepted : (ptr, call) ∈ run.accepted) (unfinished : Unfinished run ptr) :
    ∃ op, Live run.ctrl op ∧ op.hazard = call.op.hazard := by
  have alive : ∀ ptr, ptr < run.ctrl.nextPtr → ptr ∉ run.ctrl.deleted →
      ∃ op, Live run.ctrl op ∧ op.ptr = ptr := by
    intro ptr known open'
    by_contra none
    apply open'
    apply sound.deleted_of known
    · exact fun op waits same => none ⟨op, .inl waits, same⟩
    · exact fun entry held same => none ⟨entry.2, .inr ⟨entry.1, held⟩, same⟩
  rcases unfinished with open' | ⟨write, written, open'⟩
  · obtain ⟨op, live, rfl⟩ := alive ptr (traced.accepted_lt accepted) open'
    refine ⟨op, live, ?_⟩
    rcases traced.live_origin sound live with ⟨other, known, shape⟩ | ⟨read, other, written, -⟩
    · rw [traced.call_unique known accepted] at shape
      rw [shape]
    · exact (traced.apart accepted written).elim
  · obtain ⟨op, live, rfl⟩ := alive write (traced.written_lt written).2 open'
    refine ⟨op, live, ?_⟩
    rcases traced.live_origin sound live with ⟨other, known, -⟩ | ⟨read, other, pair, known, -, shape⟩
    · exact (traced.apart known written).elim
    · have same : read = ptr := (position_written traced pair).symm.trans (position_written traced written)
      subst same
      rw [traced.call_unique known accepted] at shape
      rw [shape]
      rfl

section Response
variable {id : Nat} {data : Buffer} {created : List RevMemOp} {after : Ctrl}
  (sound : Sound run.ctrl) (held : (id, op) ∈ run.ctrl.outstanding)
  (answered : Answered config run.ctrl id data op created after)
include sound held answered

/-- What is live after a response is new or was live, and is not the operation that was completed. -/
theorem live_answered {other : RevMemOp} (live : Live after other) :
    other ∈ created ∨ Live run.ctrl other ∧ (run.ctrl.isLast op = true → other.ptr ≠ op.ptr) := by
  rcases live with waits | ⟨key, flying⟩
  · rw [answered.rqstQ] at waits
    rcases List.mem_append.mp waits with old | new
    · right
      refine ⟨.inl old, ?_⟩
      intro _ same
      have none := (sound.held_lt held).2.1
      have some : 0 < queued run.ctrl op.ptr := List.countP_pos_iff.mpr ⟨other, old, by simpa using same⟩
      dsimp only at none
      omega
    · exact .inl new
  · rw [answered.outstanding] at flying
    obtain ⟨old, apart⟩ := List.mem_filter.mp flying
    right
    refine ⟨.inr ⟨key, old⟩, ?_⟩
    intro last
    exact sound.settle_apart held last old (by simpa using apart)

theorem answered_live {other : RevMemOp} (live : Live run.ctrl other) (apart : other.ptr ≠ op.ptr) :
    Live after other := by
  rcases live with waits | ⟨key, flying⟩
  · left
    rw [answered.rqstQ]
    exact List.mem_append_left _ waits
  · right
    refine ⟨key, ?_⟩
    rw [answered.outstanding, List.mem_filter]
    refine ⟨flying, ?_⟩
    rw [bne_iff_ne]
    intro same
    dsimp only at same
    subst same
    have nodup := sound.nodup
    rw [sound.keys] at nodup
    exact apart (congrArg RevMemOp.ptr (Prod.mk.inj (List.inj_on_of_nodup_map nodup flying held rfl)).2)

/-- A response keeps the hazard of every operation set exactly where it completes all that its cell
stands for. -/
theorem carried_respond_iff (traced : Traced run) (carried : Carried run.ctrl)
    (responded : run.ctrl.respond config id data = .ok after) :
    Carried after ↔ (run.ctrl.isLast op = true → ∀ cell, op.hazard = some cell →
      closesAMO run.ctrl op = false ∧
        ∀ other, Live run.ctrl other → other.ptr ≠ op.ptr → other.hazard ≠ some cell) := by
  obtain ⟨request, sent, same⟩ := sound.wired _ held
  have hazards := respond_hazards (sound.find held) sent same responded
  have origin := traced.held_origin sound held
  constructor
  · intro kept last cell awaited
    have cleared : after.hazards cell = false := by
      rw [hazards, if_pos ⟨last, origin.answered_lane awaited⟩, hazardsCleared, awaited]
      exact Function.update_self _ _ _
    constructor
    · cases closes : closesAMO run.ctrl op with
      | false => rfl
      | true =>
        obtain ⟨-, target, host, -, rfl, -⟩ := answered.modifies closes
        have new : Live after (amoWrite op run.ctrl.nextPtr (amoBuffer config host target op)) := by
          left
          rw [answered.rqstQ]
          exact List.mem_append_right _ (List.mem_singleton.mpr rfl)
        rw [kept _ new cell awaited] at cleared
        cases cleared
    · intro other live apart shared
      rw [kept other (answered_live sound held answered live apart) cell shared] at cleared
      cases cleared
  · intro sole other live cell shared
    by_cases last : run.ctrl.isLast op = true
    · cases mine : op.hazard with
      | none =>
        have quiet : closesAMO run.ctrl op = false := by
          cases closes : closesAMO run.ctrl op with
          | false => rfl
          | true =>
            obtain ⟨-, call, accepted, amo⟩ := (traced.closes_iff sound held).mp closes
            obtain ⟨cell, awaited⟩ := Call.amo_hazard amo
            rcases origin with ⟨known, listed, shape⟩ | ⟨read, known, written, -⟩
            · rw [traced.call_unique listed accepted] at shape
              rw [shape] at mine
              cases mine.symm.trans awaited
            · exact (traced.apart accepted written).elim
        obtain ⟨rfl, -⟩ := answered.quiet quiet
        rcases live_answered sound held answered live with new | ⟨old, -⟩
        · cases new
        · rw [hazards]
          unfold hazardsCleared
          rw [mine, ite_self]
          exact carried other old cell shared
      | some own =>
        obtain ⟨quiet, apart⟩ := sole last own mine
        obtain ⟨rfl, -⟩ := answered.quiet quiet
        rcases live_answered sound held answered live with new | ⟨old, differs⟩
        · cases new
        · have other' : cell ≠ own := by
            rintro rfl
            exact apart other old (differs last) shared
          rw [hazards, if_pos ⟨last, origin.answered_lane mine⟩, hazardsCleared, mine]
          dsimp only
          rw [Function.update_of_ne other', carried other old cell shared]
    · have quiet : closesAMO run.ctrl op = false := by simp [closesAMO, last]
      obtain ⟨rfl, -⟩ := answered.quiet quiet
      rcases live_answered sound held answered live with new | ⟨old, -⟩
      · cases new
      · rw [hazards, if_neg fun both => last both.1]
        exact carried other old cell shared

end Response

/-- An operation that is live after a step has its hazard from one before, or from the call. -/
theorem live_hazard {event : Event} {after : Run} (sound : Sound run.ctrl)
    (move : Move config run event after) (live : Live after.ctrl op) (awaited : op.hazard = some cell) :
    (∃ old, Live run.ctrl old ∧ old.hazard = some cell) ∨
      ∃ call, event = .send call ∧ call.accepts = true ∧ call.op.hazard = some cell := by
  cases move with
  | refuse | start | idle => exact .inl ⟨op, live, awaited⟩
  | accept call accepts hazards =>
    rcases live with waits | flying
    · rcases List.mem_append.mp waits with old | new
      · exact .inl ⟨op, .inl old, awaited⟩
      · rw [List.mem_singleton.mp new] at awaited
        exact .inr ⟨call, rfl, accepts, awaited⟩
    · exact .inl ⟨op, .inr flying, awaited⟩
  | answer id data answeredOp created ctrl held answered =>
    rcases live_answered sound held answered live with new | ⟨old, -⟩
    · cases closes : closesAMO run.ctrl answeredOp with
      | false =>
        rw [(answered.quiet closes).1] at new
        cases new
      | true =>
        obtain ⟨-, target, host, -, rfl, -⟩ := answered.modifies closes
        rw [List.mem_singleton.mp new] at awaited
        exact .inl ⟨answeredOp, .inr ⟨id, held⟩, awaited⟩
    · exact .inl ⟨op, old, awaited⟩
  | fence tick front taken back running isTaken kind =>
    rcases live with waits | flying
    · exact .inl ⟨op, .inl ((sublist_taken isTaken.queue).subset waits), awaited⟩
    · exact .inl ⟨op, .inr flying, awaited⟩
  | dispatch tick front taken back lane next running isTaken isLane sends =>
    rcases live with waits | ⟨id, flying⟩
    · exact .inl ⟨op, .inl ((sublist_taken isTaken.queue).subset waits), awaited⟩
    · rcases mem_sentOff.mp flying with old | ⟨shape, -⟩
      · exact .inl ⟨op, .inr ⟨id, old⟩, awaited⟩
      · have member : taken ∈ run.ctrl.rqstQ := by simp [isTaken.queue]
        dsimp only at shape
        rw [shape] at awaited
        exact .inl ⟨taken, .inl member, awaited⟩

theorem unfinished_before {event : Event} {after : Run} {ptr : Nat} (sound : Sound run.ctrl)
    (move : Move config run event after) (unfinished : Unfinished after ptr) : Unfinished run ptr := by
  cases move with
  | refuse | accept | start | idle | dispatch => exact unfinished
  | answer id data answeredOp created ctrl held answered =>
    have grows : ∀ ptr, ptr ∉ ctrl.deleted → ptr ∉ run.ctrl.deleted := by
      intro ptr open' old
      apply open'
      rw [answered.deleted]
      exact List.mem_append_left _ old
    rcases unfinished with open' | ⟨write, written, open'⟩
    · exact .inl (grows ptr open')
    · rcases List.mem_append.mp written with old | new
      · exact .inr ⟨write, old, grows write open'⟩
      · obtain ⟨_, _, same⟩ := List.mem_map.mp new
        have none := (sound.held_lt held).2.2
        rw [List.count_eq_zero] at none
        left
        rw [← (Prod.mk.inj same).1]
        exact none
  | fence tick front taken back running isTaken kind =>
    rcases unfinished with open' | ⟨write, written, open'⟩
    · exact .inl fun old => open' (List.mem_append_left _ old)
    · exact .inr ⟨write, written, fun old => open' (List.mem_append_left _ old)⟩

end Live

/-- What the steps of a run keep together. -/
structure Guarded (cores : Cores) : Prop where
  sound : Sound cores.run.ctrl
  traced : Traced cores.run
  carried : Carried cores.run.ctrl
  cells : ∀ op, Live cores.run.ctrl op → ∀ cell, op.hazard = some cell → cell ∉ cores.released
  amo : ∀ ptr call, (ptr, call) ∈ cores.run.accepted → call.isAMO = true → Unfinished cores.run ptr →
    ∀ cell, call.op.hazard = some cell → cores.Owns cell
  present : ∀ core, ∀ cell ∈ cores.cells core, cell ∉ cores.released
  once : ∀ core, (cores.cells core).Nodup
  apart : ∀ one other, one ≠ other → ∀ cell ∈ cores.cells one, cell ∉ cores.cells other

section Guarded
variable {config : Config} {cores after : Cores}

theorem step_memory {event : Event} (stepped : cores.step config (.memory event) = .ok after) :
    ∃ run, cores.run.step config event = .ok run ∧ after = { cores with run := run } := by
  simp only [Cores.step] at stepped
  split at stepped
  · cases stepped
  · rename_i run ran
    cases stepped
    exact ⟨run, ran, rfl⟩

theorem guarded_start (host : Nat → Byte) (hazards : Nat → Bool) :
    Guarded ⟨⟨Ctrl.new host hazards, none, [], []⟩, fun _ => [], []⟩ where
  sound := sound_new host hazards
  traced := traced_new host hazards
  carried := by simp [Carried, Live, Ctrl.new]
  cells := by simp
  amo := by simp
  present := by simp
  once := by simp [Cores.cells]
  apart := by simp [Cores.cells]

theorem Guarded.covered (guarded : Guarded cores) : Covered cores := by
  constructor
  · intro ptr call accepted amo unfinished
    obtain ⟨cell, awaited⟩ := Call.amo_hazard amo
    obtain ⟨op, live, same⟩ := unfinished_live guarded.traced guarded.sound accepted unfinished
    exact ⟨cell, awaited, guarded.carried op live cell (same.trans awaited),
      guarded.amo ptr call accepted amo unfinished cell awaited⟩
  · exact guarded.cells

theorem cells_createLoadHazard (core cell other : Nat) (cost : BitVec 32) :
    (cores.createLoadHazard core cell cost).cells other =
      cores.cells other ++ if other = core then [cell] else [] := by
  unfold Cores.cells Cores.createLoadHazard
  by_cases same : other = core
  · subst same
    rw [if_pos rfl]
    simp only [Function.update_self, List.map_append, List.map_cons, List.map_nil]
  · rw [if_neg same]
    simp only [Function.update_of_ne same, List.append_nil]

theorem Guarded.push (guarded : Guarded cores) {core cell : Nat} (cost : BitVec 32)
    (unowned : ¬ cores.Owns cell) (unreleased : cell ∉ cores.released)
    (unused : ∀ op, Live cores.run.ctrl op → op.hazard ≠ some cell) :
    Guarded (cores.createLoadHazard core cell cost) := by
  have old : ∀ {other mine : Nat}, mine ∈ (cores.createLoadHazard core cell cost).cells other →
      mine ∈ cores.cells other ∨ other = core ∧ mine = cell := by
    intro other mine member
    rw [cells_createLoadHazard, List.mem_append] at member
    rcases member with before | new
    · exact .inl before
    · split at new
      · rename_i same
        exact .inr ⟨same, List.mem_singleton.mp new⟩
      · cases new
  constructor
  case sound => exact guarded.sound.of_eq rfl rfl rfl rfl rfl rfl rfl
  case traced =>
    exact guarded.traced.turn (cores.run.ctrl.setHazard cell false) cores.run.tick rfl rfl
      (fun ptr dead => dead) (fun ptr dead => .inl dead) (fun op waits => waits)
      guarded.traced.wire fun op live => ⟨op, live, rfl, rfl⟩
  case carried =>
    intro op live mine awaited
    have other : mine ≠ cell := by
      rintro rfl
      exact unused op live awaited
    exact (Function.update_of_ne other _ _).trans (guarded.carried op live mine awaited)
  case cells => exact guarded.cells
  case amo =>
    intro ptr call accepted amo unfinished mine awaited
    obtain ⟨owner, member⟩ := guarded.amo ptr call accepted amo unfinished mine awaited
    refine ⟨owner, ?_⟩
    rw [cells_createLoadHazard]
    exact List.mem_append_left _ member
  case present =>
    intro other mine member
    rcases old member with before | ⟨-, rfl⟩
    · exact guarded.present other mine before
    · exact unreleased
  case once =>
    intro other
    rw [cells_createLoadHazard]
    split
    · rename_i same
      rw [List.nodup_append]
      refine ⟨guarded.once other, List.nodup_singleton cell, ?_⟩
      rintro mine member _ new rfl
      rw [List.mem_singleton.mp new] at member
      exact unowned ⟨other, member⟩
    · rw [List.append_nil]
      exact guarded.once other
  case apart =>
    intro one other differ mine first second
    rcases old first with before | ⟨rfl, rfl⟩
    · rcases old second with also | ⟨rfl, rfl⟩
      · exact guarded.apart one other differ mine before also
      · exact unowned ⟨one, before⟩
    · rcases old second with also | ⟨rfl, -⟩
      · exact unowned ⟨other, also⟩
      · exact differ rfl

/-- A retirement releases the cell at the front, where it is clear, or leaves every cell where it is. -/
theorem retire_cases (cores : Cores) (core : Nat) :
    (cores.retire core).run = cores.run ∧
    (((∀ other, (cores.retire core).cells other = cores.cells other) ∧
        (cores.retire core).released = cores.released) ∨
      ∃ cell rest, cores.cells core = cell :: rest ∧ cores.run.ctrl.hazards cell = false ∧
        (∀ other, (cores.retire core).cells other = if other = core then rest else cores.cells other) ∧
        (cores.retire core).released = cores.released ++ [cell]) := by
  unfold Cores.retire
  split
  · exact ⟨rfl, .inl ⟨fun _ => rfl, rfl⟩⟩
  · rename_i front rest pipe
    split
    · rename_i positive
      dsimp only
      split
      · rename_i retires
        refine ⟨rfl, .inr ⟨front.cell, rest.map Slot.cell, ?_, retires.2, ?_, rfl⟩⟩
        · rw [Cores.cells, pipe, List.map_cons]
        · intro other
          unfold Cores.cells
          dsimp only
          by_cases same : other = core
          · subst same
            rw [if_pos rfl, Function.update_self]
          · rw [if_neg same, Function.update_of_ne same]
      · refine ⟨rfl, .inl ⟨?_, rfl⟩⟩
        intro other
        unfold Cores.cells
        dsimp only
        by_cases same : other = core
        · subst same
          rw [Function.update_self, pipe, List.map_cons, List.map_cons]
        · rw [Function.update_of_ne same]
    · exact ⟨rfl, .inl ⟨fun _ => rfl, rfl⟩⟩

-- The cell at the front is clear, so it is that of no operation and of no unfinished AMO.
theorem Guarded.retire (guarded : Guarded cores) (core : Nat) : Guarded (cores.retire core) := by
  obtain ⟨same, ⟨kept, stays⟩ | ⟨cell, rest, front, clear, kept, grows⟩⟩ := retire_cases cores core
  · constructor
    case sound =>
      rw [same]
      exact guarded.sound
    case traced =>
      rw [same]
      exact guarded.traced
    case carried =>
      rw [same]
      exact guarded.carried
    case cells =>
      rw [same, stays]
      exact guarded.cells
    case amo =>
      rw [same]
      intro ptr call accepted amo unfinished mine awaited
      obtain ⟨owner, member⟩ := guarded.amo ptr call accepted amo unfinished mine awaited
      exact ⟨owner, by rw [kept]; exact member⟩
    case present =>
      intro other
      rw [kept, stays]
      exact guarded.present other
    case once =>
      intro other
      rw [kept]
      exact guarded.once other
    case apart =>
      intro one other
      rw [kept, kept]
      exact guarded.apart one other
  · have subset : ∀ {other mine : Nat}, mine ∈ (cores.retire core).cells other →
        mine ∈ cores.cells other := by
      intro other mine member
      rw [kept] at member
      split at member
      · rename_i same
        rw [same, front]
        exact List.mem_cons_of_mem _ member
      · exact member
    have others : ∀ {mine : Nat}, cores.run.ctrl.hazards mine = true → mine ≠ cell := by
      rintro mine set rfl
      rw [set] at clear
      cases clear
    constructor
    case sound =>
      rw [same]
      exact guarded.sound
    case traced =>
      rw [same]
      exact guarded.traced
    case carried =>
      rw [same]
      exact guarded.carried
    case cells =>
      rw [same, grows]
      intro op live mine awaited released
      rcases List.mem_append.mp released with old | new
      · exact guarded.cells op live mine awaited old
      · exact others (guarded.carried op live mine awaited) (List.mem_singleton.mp new)
    case amo =>
      rw [same]
      intro ptr call accepted amo unfinished mine awaited
      obtain ⟨op, live, shared⟩ := unfinished_live guarded.traced guarded.sound accepted unfinished
      have differs := others (guarded.carried op live mine (shared.trans awaited))
      obtain ⟨owner, member⟩ := guarded.amo ptr call accepted amo unfinished mine awaited
      refine ⟨owner, ?_⟩
      rw [kept]
      split
      · rename_i here
        rw [here, front] at member
        exact (List.mem_cons.mp member).resolve_left differs
      · exact member
    case present =>
      intro other mine member released
      rw [grows] at released
      rcases List.mem_append.mp released with old | new
      · exact guarded.present other mine (subset member) old
      · rw [List.mem_singleton.mp new] at member
        have first : cell ∈ cores.cells core := by simp [front]
        by_cases here : other = core
        · subst here
          have nodup := guarded.once other
          rw [kept, if_pos rfl] at member
          rw [front, List.nodup_cons] at nodup
          exact nodup.1 member
        · exact guarded.apart other core here cell (subset member) first
    case once =>
      intro other
      rw [kept]
      split
      · have nodup := guarded.once core
        rw [front, List.nodup_cons] at nodup
        exact nodup.2
      · exact guarded.once other
    case apart =>
      intro one other differ mine first second
      exact guarded.apart one other differ mine (subset first) (subset second)

theorem Guarded.respond_iff (guarded : Guarded cores) {id : Nat} {data : Buffer} {run : Run}
    (legal : MemCtrl.Legal cores.run (.respond id data))
    (stepped : cores.run.step config (.respond id data) = .ok run) :
    Carried run.ctrl ↔ cores.Sole (.memory (.respond id data)) := by
  have sound := guarded.sound
  have move := step_move sound legal stepped
  cases move with
  | answer id data op created ctrl held answered =>
    simp only [Run.step] at stepped
    cases responded : cores.run.ctrl.respond config id data with
    | error fault =>
      rw [responded] at stepped
      cases stepped
    | ok next =>
      rw [responded] at stepped
      obtain rfl : next = ctrl := congrArg Run.ctrl (Except.ok.inj stepped)
      rw [carried_respond_iff sound held answered guarded.traced guarded.carried responded]
      constructor
      · intro alone other flying
        have same : other = op := Option.some.inj ((sound.find flying).symm.trans (sound.find held))
        rw [same]
        exact alone
      · intro sole
        exact sole op held

theorem Guarded.memory (guarded : Guarded cores) {event : Event} {run : Run}
    (legal : cores.Legal (.memory event)) (sole : cores.Sole (.memory event))
    (stepped : cores.run.step config event = .ok run) : Guarded { cores with run := run } := by
  have move := step_move guarded.sound legal.1 stepped
  have handed : ∀ call, event = .send call → ∀ cell, call.op.hazard = some cell →
      cell ∉ cores.released ∧ (call.isAMO = true → cores.Owns cell) := by
    rintro call rfl cell awaited
    have hands : cores.Hands call := legal.2
    rcases hands cell awaited with ⟨core, last⟩ | ⟨plain, -, unreleased⟩
    · have member := List.mem_of_getLast? last
      exact ⟨guarded.present core cell member, fun _ => ⟨core, member⟩⟩
    · exact ⟨unreleased, fun amo => by rw [plain] at amo; cases amo⟩
  constructor
  case sound => exact move.sound guarded.sound
  case traced => exact move.traced guarded.traced guarded.sound
  case carried =>
    cases event with
    | send call =>
      cases stepped
      intro op live cell awaited
      rcases live_hazard guarded.sound move live awaited with ⟨old, was, same⟩ | ⟨other, ⟨⟩, accepts, same⟩
      · exact apply_keeps call (guarded.carried old was cell same)
      · dsimp only
        rw [apply_hazards, same]
        dsimp only
        rw [if_pos accepts, Function.update_self]
    | respond id data =>
      exact (guarded.respond_iff legal.1 stepped).mpr sole
    | begin =>
      intro op live cell awaited
      rcases live_hazard guarded.sound move live awaited with ⟨old, was, same⟩ | ⟨other, ⟨⟩, -⟩
      cases move with
      | start fences tick opening => exact guarded.carried old was cell same
    | next =>
      intro op live cell awaited
      rcases live_hazard guarded.sound move live awaited with ⟨old, was, same⟩ | ⟨other, ⟨⟩, -⟩
      cases move with
      | idle | fence | dispatch => exact guarded.carried old was cell same
  case cells =>
    intro op live cell awaited
    rcases live_hazard guarded.sound move live awaited with ⟨old, was, same⟩ | ⟨call, sent, -, same⟩
    · exact guarded.cells old was cell same
    · exact (handed call sent cell same).1
  case amo =>
    intro ptr call accepted amo unfinished cell awaited
    rcases accepted_of_step move accepted with old | sent
    · exact guarded.amo ptr call old amo (unfinished_before guarded.sound move unfinished) cell awaited
    · exact (handed call sent cell awaited).2 amo
  case present => exact guarded.present
  case once => exact guarded.once
  case apart => exact guarded.apart

theorem reached_guarded (reached : Cores.Reached config Cores.Sole cores) : Guarded cores := by
  induction reached with
  | start host hazards => exact guarded_start host hazards
  | step before event legal meets stepped ih =>
    cases event with
    | push core cell cost =>
      cases stepped
      exact ih.push cost legal.1 legal.2.1 legal.2.2
    | retire core =>
      cases stepped
      exact ih.retire core
    | memory event =>
      obtain ⟨run, ran, rfl⟩ := step_memory stepped
      exact ih.memory legal meets ran

/-- In every run in which each response that completes an operation completes all that its hazard cell
stands for, the hazard of an AMO covers it and no cell is released that an operation refers to; and a
response of another kind leaves an operation waiting with its hazard clear. -/
theorem amo_hazard_covers (reached : Cores.Reached config Cores.Sole cores) :
    Covered cores ∧ ∀ id data after, cores.Legal (.memory (.respond id data)) →
      cores.step config (.memory (.respond id data)) = .ok after →
        (Carried after.run.ctrl ↔ cores.Sole (.memory (.respond id data))) := by
  have guarded := reached_guarded reached
  refine ⟨guarded.covered, ?_⟩
  intro id data after legal stepped
  obtain ⟨run, ran, rfl⟩ := step_memory stepped
  exact guarded.respond_iff legal.1 ran

section Two

def twoCores : Cores :=
  ((⟨emptyRun, fun _ => [], []⟩ : Cores).createLoadHazard 0 0 1).createLoadHazard 1 1 1

def coresWith (run : Run) : Cores := { twoCores with run := run }

theorem twoCores_reached {good : Cores → CoreEvent → Prop}
    (pushes : ∀ cores core cell cost, good cores (.push core cell cost)) :
    Cores.Reached narrow good twoCores := by
  have start : Cores.Reached narrow good ⟨emptyRun, fun _ => [], []⟩ := .start _ _
  have idle : ∀ op, ¬ Live emptyCtrl op := by simp [Live, emptyCtrl, Ctrl.new]
  have first := start.step (.push 0 0 1)
    ⟨by simp [Cores.Owns, Cores.cells], by simp, fun op live => absurd live (idle op)⟩
    (pushes _ _ _ _) rfl
  refine first.step (.push 1 1 1) ⟨?_, List.not_mem_nil, fun op live => absurd live (idle op)⟩
    (pushes _ _ _ _) rfl
  rintro ⟨core, member⟩
  rw [cells_createLoadHazard] at member
  split at member
  · simp [Cores.cells] at member
  · simp [Cores.cells] at member

/-- Every call is of an instruction of one of the two. -/
def handed : Event → Bool
  | .send call => call.op.hazard.all fun cell => cell == 0 || cell == 1
  | _ => true

theorem hands_of {run : Run} {call : Call} (passed : handed (.send call) = true) :
    (coresWith run).Hands call := by
  intro cell awaited
  rw [handed, awaited, Option.all_some, Bool.or_eq_true, beq_iff_eq, beq_iff_eq] at passed
  left
  rcases passed with rfl | rfl
  · exact ⟨0, rfl⟩
  · exact ⟨1, rfl⟩

theorem coresWith_reached (good : Cores → CoreEvent → Prop) {test : Run → Event → Bool} {run later : Run}
    {events : List Event}
    (sound : ∀ run event, test run event = true →
      handed event = true ∧ good (coresWith run) (.memory event))
    (reached : Cores.Reached narrow good (coresWith run))
    (followed : follow narrow test run events = some later) :
    Cores.Reached narrow good (coresWith later) := by
  induction events generalizing run with
  | nil =>
    cases followed
    exact reached
  | cons event rest ih =>
    rw [follow] at followed
    split at followed
    · rename_i possible
      rw [Bool.and_eq_true, isLegal_iff] at possible
      split at followed
      · cases followed
      · rename_i next stepped
        obtain ⟨passed, meets⟩ := sound run event possible.2
        refine ih (reached.step (.memory event) ⟨possible.1, ?_⟩ meets ?_) followed
        · cases event with
          | send call => exact hands_of passed
          | respond id data => trivial
          | begin => trivial
          | next => trivial
        · simp only [Cores.step, coresWith, stepped]
    · cases followed

/-- No other operation carries the hazard of the one that is answered, and that is no AMO. -/
def soleB (run : Run) : Event → Bool
  | .respond id _ => run.ctrl.outstanding.all fun entry => entry.1 != id ||
      (!closesAMO run.ctrl entry.2 && (run.ctrl.rqstQ ++ run.ctrl.outstanding.map Prod.snd).all fun other =>
        other.ptr == entry.2.ptr || other.hazard != entry.2.hazard)
  | event => handed event

theorem sole_of (run : Run) (event : Event) (passed : soleB run event = true) :
    handed event = true ∧ (coresWith run).Sole (.memory event) := by
  cases event with
  | send call => exact ⟨passed, trivial⟩
  | begin => exact ⟨rfl, trivial⟩
  | next => exact ⟨rfl, trivial⟩
  | respond id data =>
    refine ⟨rfl, ?_⟩
    intro op held last cell awaited
    rw [soleB, List.all_eq_true] at passed
    have alone := passed _ held
    simp only [bne_self_eq_false, Bool.false_or, Bool.and_eq_true, Bool.not_eq_true', List.all_eq_true,
      List.mem_append, Bool.or_eq_true, beq_iff_eq, bne_iff_ne] at alone
    refine ⟨alone.1, ?_⟩
    intro other live apart shared
    have listed : other ∈ run.ctrl.rqstQ ∨ other ∈ run.ctrl.outstanding.map Prod.snd := by
      rcases live with waits | ⟨key, flying⟩
      · exact .inl waits
      · exact .inr (List.mem_map.mpr ⟨_, flying, rfl⟩)
    rcases alone.2 other listed with same | differs
    · exact apart same
    · exact differs (shared.trans awaited.symm)

def oneRead : Call := .sendREADRequest 1 64 64 4 8 1 0

theorem retire_last (cores : Cores) (core cell : Nat) (pipe : cores.pipeline core = [⟨cell, 1⟩])
    (clear : cores.run.ctrl.hazards cell = false) :
    (cores.retire core).released = cores.released ++ [cell] ∧ (cores.retire core).run = cores.run := by
  unfold Cores.retire
  rw [pipe]
  dsimp only
  rw [if_pos (by decide), if_pos ⟨by decide, clear⟩]
  exact ⟨rfl, rfl⟩

/-- An AMO waits while the read of the other core is answered and retires. -/
theorem amo_hazard_covers_two : ∃ cores, Cores.Reached narrow Cores.Sole cores ∧
    cores.released = [1] ∧ cores.run.ctrl.requests = [0] ∧ Covered cores := by
  have seen : (follow narrow soleB twoCores.run
      [.send addOne, .send oneRead, .begin, .next, .next, .begin, .next, .next, .respond 1 fun _ => 0]).map
        (fun run => (run.ctrl.hazards 1, run.ctrl.requests)) = some (false, [0]) := by decide
  obtain ⟨run, followed, observed⟩ := Option.map_eq_some_iff.mp seen
  obtain ⟨clear, waits⟩ := Prod.mk.inj observed
  have worked := coresWith_reached Cores.Sole sole_of (twoCores_reached fun _ _ _ _ => trivial) followed
  have reached := worked.step (.retire 1) trivial trivial rfl
  obtain ⟨released, same⟩ := retire_last (coresWith run) 1 1 rfl clear
  exact ⟨_, reached, released, by rw [same]; exact waits, (amo_hazard_covers reached).1⟩

/-- The answer to the READ of an AMO clears its hazard: the instruction retires, and the WRITE that is
queued refers to a cell that is gone. -/
theorem amo_hazard_clears_early :
    ¬ ∀ cores, Cores.Reached narrow (fun _ _ => True) cores → Covered cores := by
  intro covers
  have seen : (follow narrow (fun _ => handed) twoCores.run
      [.send addOne, .begin, .next, .next, .respond 0 fun _ => 0]).map
        (fun run => (run.ctrl.hazards 0, run.ctrl.rqstQ.map RevMemOp.hazard)) =
      some (false, [some 0]) := by decide
  obtain ⟨run, followed, observed⟩ := Option.map_eq_some_iff.mp seen
  obtain ⟨clear, queue⟩ := Prod.mk.inj observed
  have worked := coresWith_reached (fun _ _ => True) (fun _ _ passed => ⟨passed, trivial⟩)
    (twoCores_reached fun _ _ _ _ => trivial) followed
  have reached := worked.step (.retire 0) trivial trivial rfl
  obtain ⟨released, same⟩ := retire_last (coresWith run) 0 0 rfl clear
  obtain ⟨write, waits, awaited⟩ := List.mem_map.mp (queue ▸ List.mem_singleton.mpr rfl)
  have gone := (covers _ reached).cells write (.inl (by rw [same]; exact waits)) 0 awaited
  apply gone
  rw [released]
  exact List.mem_append_right _ (List.mem_singleton.mpr rfl)

end Two
end Guarded
end RevCPU.MemCtrl
