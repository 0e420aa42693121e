import RevCPU.MemCtrlServe
import RevCPU.MemCtrlFence
import Mathlib.Data.List.Permutation
/-!
AMOs through the controller. An AMO is a READ, a MODIFY in the handler of its response and a WRITE at the
end of the queue, and nothing keeps other writes to its bytes off the interface in between. Where none is
sent there, and the writes of each hart leave in program order, every run ends in the memory of a serial
order of the AMOs and writes.
-/
namespace RevCPU.MemCtrl
open Mem MemRefine RegFile Atomic LoadStore

section Program
variable {config : Config} {run : Run}

def Call.changes (call : Call) : Bool := call.isAMO || call.op.op == .WRITE

/-- A call as one step on the memory. -/
def Call.effect (memory : Nat → Byte) (call : Call) : Nat → Byte :=
  if call.isAMO then flatStore memory call.op.addr call.op.size (amoResult memory call.op)
  else if call.op.op = .WRITE then flatStore memory call.op.addr call.op.size call.op.membuf
  else memory

def serial (base : Nat → Byte) (order : List (Nat × Call)) : Nat → Byte :=
  order.foldl (fun memory entry => entry.2.effect memory) base

/-- The place of an operation in program order: the WRITE of an AMO stands where its READ does. -/
def position (run : Run) (ptr : Nat) : Nat :=
  match run.writes.find? fun pair => pair.2 == ptr with
  | none => ptr
  | some pair => pair.1

def isAMOWrite (run : Run) (op : RevMemOp) : Prop := ∃ read, (read, op.ptr) ∈ run.writes

/-- An AMO whose READ is sent and whose WRITE is not, by the operation that stands for it. -/
def Between (run : Run) (op : RevMemOp) : Prop :=
  ((∃ id, (id, op) ∈ run.ctrl.outstanding) ∧ isAMORead run op) ∨ (op ∈ run.ctrl.rqstQ ∧ isAMOWrite run op)

/-- What an operation has to do to the memory is not sent yet. -/
def Pending (run : Run) (op : RevMemOp) : Prop :=
  op ∈ run.ctrl.rqstQ ∨ (∃ id, (id, op) ∈ run.ctrl.outstanding) ∧ isAMORead run op

def Overlap (first second : RevMemOp) : Prop :=
  first.addr < second.addr + second.size ∧ second.addr < first.addr + first.size

/-- The READ of an AMO is in flight, or its WRITE stands behind an operation in the queue. -/
def Underway (run : Run) (op other : RevMemOp) : Prop :=
  ((∃ id, (id, other) ∈ run.ctrl.outstanding) ∧ isAMORead run other) ∨
    (other ∈ run.ctrl.rqstQ ∧ isAMOWrite run other ∧ op.ptr < other.ptr)

/-- What has to hold of the operation a turn sends. Of those in front of it in the queue nothing is asked. -/
structure AmoTurn (config : Config) (run : Run) (op : RevMemOp) : Prop where
  covers : Covers config op
  word : isAMORead run op → op.size = 4 ∧ (piecesOf config op).length = 1
  alone : op.op = .WRITE → ∀ other, Between run other → other.ptr ≠ op.ptr → ¬ Overlap other op
  program : op.op = .WRITE → ∀ other, Underway run op other → other.hart = op.hart →
    ¬ position run other.ptr < position run op.ptr
  acquire : ∀ other, Underway run op other → other.hart = op.hart → (other.flags &&& F_AQ) ≠ 0 →
    ¬ position run other.ptr < position run op.ptr
  release : isAMORead run op → (op.flags &&& F_RL) ≠ 0 → ∀ other,
    (∃ id, (id, other) ∈ run.ctrl.outstanding) ∨ Underway run op other → other.hart = op.hart →
    ¬ position run other.ptr < position run op.ptr

/-- The READ of an AMO, and a later WRITE of its hart. -/
def Trails (earlier op : RevMemOp) : Prop :=
  (earlier.op = .READ ∧ isAtomic earlier.flags = true) ∧ op.op = .WRITE ∧ earlier.hart = op.hart

/-- The memory serves in the order sent: a read is answered with what the requests before it left. -/
def serves (base : Nat → Byte) (run : Run) : Event → Prop
  | .respond id data => ∀ earlier request later, run.ctrl.wire = earlier ++ request :: later →
    request.id = id → request.op.op = .READ →
    ∀ index < request.size, data index = served base earlier (request.addr + index)
  | _ => True

/-- No tick begins with the READ kind used up in front of an AMO that a WRITE follows. -/
def amoTurns (config : Config) (run : Run) : Event → Prop
  | .begin => Untangled config Trails Tick.new run.ctrl.rqstQ
  | .next => ∀ tick front op back, run.tick = some tick → Taken config tick run.ctrl front op back →
    Sends config run.ctrl front op → AmoTurn config run op
  | _ => True

def amoGood (config : Config) (base : Nat → Byte) (run : Run) (event : Event) : Prop :=
  readsWrites run event ∧ serves base run event ∧ amoTurns config run event

section Positions
variable (traced : Traced run)
include traced

theorem position_accepted {ptr : Nat} {call : Call} (accepted : (ptr, call) ∈ run.accepted) :
    position run ptr = ptr := by
  have missing : run.writes.find? (fun pair => pair.2 == ptr) = none := by
    rw [List.find?_eq_none]
    rintro ⟨read, write⟩ member same
    simp only [beq_iff_eq] at same
    subst same
    exact traced.apart accepted member
  rw [position, missing]

theorem position_written {read ptr : Nat} (written : (read, ptr) ∈ run.writes) :
    position run ptr = read := by
  cases found : run.writes.find? fun pair => pair.2 == ptr with
  | none =>
    have absent := List.find?_eq_none.mp found _ written
    simp at absent
  | some pair =>
    have member := List.mem_of_find?_eq_some found
    have same : pair.2 = ptr := by simpa using List.find?_some found
    have distinct := (List.nodup_append.mp traced.distinct).2.1
    have equal := List.inj_on_of_nodup_map distinct member written same
    rw [position, found]
    simp only [equal]

theorem position_lt {op : RevMemOp} (origin : Origin run op) : position run op.ptr < run.ctrl.nextPtr := by
  rcases origin with ⟨call, accepted, _⟩ | ⟨read, call, written, accepted, _⟩
  · rw [position_accepted traced accepted]
    exact traced.accepted_lt accepted
  · rw [position_written traced written]
    exact traced.accepted_lt accepted

end Positions

section Table

/-- What the run and the AMO table say of the AMOs whose WRITE is queued. -/
structure Listed (run : Run) : Prop where
  genuine : ∀ entry ∈ run.accepted, entry.2.accepts = true
  later : ∀ pair ∈ run.writes, pair.1 < pair.2
  listed : ∀ op ∈ run.ctrl.rqstQ, isAMOWrite run op → (op.addr, op.ptr) ∈ run.ctrl.amoTable

theorem listed_new (host : Nat → Byte) (hazards : Nat → Bool) :
    Listed ⟨Ctrl.new host hazards, none, [], []⟩ := by
  constructor <;> simp [Ctrl.new]

theorem Listed.answer (known : Listed run) (sound : Sound run.ctrl) {id : Nat} {data : Buffer}
    {op : RevMemOp} {created : List RevMemOp} {ctrl : Ctrl} (held : (id, op) ∈ run.ctrl.outstanding)
    (answered : Answered config run.ctrl id data op created ctrl) :
    Listed
      { run with
          ctrl := ctrl
          writes := run.writes ++ created.map fun write => (op.ptr, write.ptr) } := by
  have new := created_ptr answered
  constructor
  case genuine => exact known.genuine
  case later =>
    intro pair member
    rcases List.mem_append.mp member with old | added
    · exact known.later pair old
    · obtain ⟨write, made, rfl⟩ := List.mem_map.mp added
      rw [new write made]
      exact (sound.held_lt held).1
  case listed =>
    rintro other waits ⟨read, written⟩
    rw [answered.rqstQ] at waits
    rcases List.mem_append.mp waits with old | fresh
    · have before : isAMOWrite run other := by
        rcases List.mem_append.mp written with kept | added
        · exact ⟨read, kept⟩
        · obtain ⟨write, made, same⟩ := List.mem_map.mp added
          have bound := sound.queued_lt old
          rw [← (Prod.mk.inj same).2, new write made] at bound
          exact absurd bound (Nat.lt_irrefl _)
      have entry := known.listed other old before
      have differs : other.ptr ≠ op.ptr := by
        intro same
        exact List.countP_eq_zero.mp (sound.held_lt held).2.1 other old (by simp [same])
      have foreign : Ctrl.ownEntry op (other.addr, other.ptr) = false := by
        simp [Ctrl.ownEntry, differs]
      cases closes : closesAMO run.ctrl op with
      | false =>
        rcases (answered.quiet closes).2 with same | ⟨_, filtered⟩
        · rw [same]
          exact entry
        · rw [filtered, List.mem_filter]
          exact ⟨entry, by rw [foreign]; rfl⟩
      | true =>
        rw [(answered.modifies closes).1, amoEntries, List.mem_eraseP_of_neg (by simp [foreign])]
        exact List.mem_append_left _ entry
    · cases closes : closesAMO run.ctrl op with
      | false =>
        rw [(answered.quiet closes).1] at fresh
        cases fresh
      | true =>
        obtain ⟨table, target, host, _, rfl, _⟩ := answered.modifies closes
        rw [List.mem_singleton.mp fresh]
        have foreign : Ctrl.ownEntry op (op.addr, run.ctrl.nextPtr) = false := by
          have older := (sound.held_lt held).1
          simp only [Ctrl.ownEntry, Bool.and_eq_false_iff, beq_eq_false_iff_ne]
          exact .inr (Nat.ne_of_gt older)
        rw [table, amoEntries, List.mem_eraseP_of_neg (by simp [amoWrite, Ctrl.newOp, foreign])]
        exact List.mem_append_right _ (List.mem_singleton_self _)

theorem Listed.step {event : Event} {after : Run} (known : Listed run) (sound : Sound run.ctrl)
    (traced : Traced run) (move : Move config run event after) : Listed after := by
  cases move with
  | refuse | start | idle => exact ⟨known.genuine, known.later, known.listed⟩
  | accept call accepts hazards =>
    constructor
    case genuine =>
      intro entry member
      rcases List.mem_append.mp member with old | new
      · exact known.genuine entry old
      · rw [List.mem_singleton.mp new]
        exact accepts
    case later => exact known.later
    case listed =>
      rintro op waits ⟨read, written⟩
      rcases List.mem_append.mp waits with old | new
      · exact List.mem_append_left _ (known.listed op old ⟨read, written⟩)
      · have bound := (traced.tagged op.ptr).mp
          (List.mem_append_right _ (List.mem_map.mpr ⟨_, written, rfl⟩))
        rw [List.mem_singleton.mp new] at bound
        exact absurd bound (Nat.lt_irrefl _)
  | answer id data op created ctrl held answered => exact known.answer sound held answered
  | fence tick front op back running taken kind =>
    exact ⟨known.genuine, known.later, fun other waits =>
      known.listed other ((sublist_taken taken.queue).subset waits)⟩
  | dispatch tick front op back lane next running taken isLane sends =>
    exact ⟨known.genuine, known.later, fun other waits =>
      known.listed other ((sublist_taken taken.queue).subset waits)⟩

theorem Listed.atomic (known : Listed run) {op : RevMemOp} (traced : Traced run) (origin : Origin run op)
    (amo : isAMORead run op ∨ isAMOWrite run op) : isAtomic op.flags = true := by
  have flagged : ∀ {ptr : Nat} {call : Call}, (ptr, call) ∈ run.accepted → call.isAMO = true →
      isAtomic call.op.flags = true := by
    intro ptr call accepted isAmo
    have accepts := known.genuine _ accepted
    simp only [Call.accepts, Call.amo_op isAmo, isAmo, Bool.not_true, Bool.false_or, Bool.or_eq_true,
      Bool.and_eq_true] at accepts
    rcases accepts with fence | ⟨_, atomic⟩
    · cases fence
    · exact atomic
  rcases origin with ⟨call, accepted, shape⟩ | ⟨read, call, written, accepted, isAmo, shape⟩
  · rcases amo with ⟨other, listed, isAmo⟩ | ⟨read, written⟩
    · rw [traced.call_unique listed accepted] at isAmo
      rw [shape]
      exact flagged accepted isAmo
    · exact (traced.apart accepted written).elim
  · rw [shape]
    exact flagged accepted isAmo

theorem amoRead_op (traced : Traced run) {op : RevMemOp} (origin : Origin run op)
    (amo : isAMORead run op) : op.op = .READ := by
  obtain ⟨call, accepted, isAmo⟩ := amo
  rcases origin with ⟨other, listed, shape⟩ | ⟨read, other, written, _⟩
  · rw [shape, traced.call_unique listed accepted]
    exact Call.amo_op isAmo
  · exact (traced.apart accepted written).elim

theorem Listed.tabled (known : Listed run) (traced : Traced run) {op : RevMemOp}
    (waits : op ∈ run.ctrl.rqstQ) (amo : isAMORead run op ∨ isAMOWrite run op) :
    run.ctrl.amoTable.isEmpty = false := by
  rw [List.isEmpty_eq_false_iff]
  apply List.ne_nil_of_mem (a := (op.addr, op.ptr))
  rcases amo with ⟨call, accepted, isAmo⟩ | written
  · exact (traced.tabled op call (.inl waits) accepted).mpr isAmo
  · exact known.listed op waits written

theorem position_le (known : Listed run) (traced : Traced run) {op : RevMemOp} (origin : Origin run op) :
    position run op.ptr ≤ op.ptr := by
  rcases origin with ⟨call, accepted, _⟩ | ⟨read, call, written, _⟩
  · rw [position_accepted traced accepted]
  · rw [position_written traced written]
    exact Nat.le_of_lt (known.later _ written)

/-- Only the WRITE of an AMO stands behind an operation that it precedes in program order. -/
theorem behind_written (known : Listed run) (traced : Traced run) {op other : RevMemOp}
    (origin : Origin run op) (source : Origin run other) (behind : op.ptr < other.ptr)
    (before : position run other.ptr < position run op.ptr) : isAMOWrite run other := by
  rcases source with ⟨call, accepted, _⟩ | ⟨read, call, written, _⟩
  · rw [position_accepted traced accepted] at before
    have bound := position_le known traced origin
    omega
  · exact ⟨read, written⟩

end Table

section Turns
variable {tick : Tick} {front back : List RevMemOp} {op : RevMemOp}

/-- What a turn keeps to, with the operations in front of it. -/
structure AmoSends (config : Config) (run : Run) (op : RevMemOp) : Prop where
  covers : Covers config op
  word : isAMORead run op → op.size = 4 ∧ (piecesOf config op).length = 1
  alone : op.op = .WRITE → ∀ other, Between run other → other.ptr ≠ op.ptr → ¬ Overlap other op
  program : op.op = .WRITE → ∀ other, Pending run other → other.hart = op.hart →
    other.op = .WRITE ∨ isAMORead run other → ¬ position run other.ptr < position run op.ptr
  acquire : ∀ other, Pending run other → other.hart = op.hart → (other.flags &&& F_AQ) ≠ 0 →
    isAMORead run other ∨ isAMOWrite run other → ¬ position run other.ptr < position run op.ptr
  release : isAMORead run op → (op.flags &&& F_RL) ≠ 0 → ∀ other, Live run.ctrl other →
    other.hart = op.hart → ¬ position run other.ptr < position run op.ptr

/-- Every turn of the run keeps to it. -/
def AmoRun (config : Config) (run : Run) : Prop :=
  ∀ tick front op back, run.tick = some tick → Taken config tick run.ctrl front op back →
    Sends config run.ctrl front op → AmoSends config run op

/-- An operation that stands in front of another of its hart, or behind it as the WRITE of an earlier AMO. -/
theorem queued_cases (known : Listed run) (sound : Sound run.ctrl) (traced : Traced run)
    (queue : run.ctrl.rqstQ = front ++ op :: back) {other : RevMemOp} (waits : other ∈ run.ctrl.rqstQ)
    (before : position run other.ptr < position run op.ptr) : other ∈ front ∨ Underway run op other := by
  have member : op ∈ run.ctrl.rqstQ := by simp [queue]
  have listed := waits
  rw [queue, List.mem_append, List.mem_cons] at listed
  rcases listed with passed | rfl | later
  · exact .inl passed
  · exact absurd before (Nat.lt_irrefl _)
  · have behind := (sound.front_lt queue).2 other later
    exact .inr (.inr ⟨waits, behind_written known traced (traced.queue op member)
      (traced.queue other waits) behind before, behind⟩)

/-- The AMOs in front of an operation hold it back by their AQ flags, and an RL flag holds it back itself. -/
theorem AmoTurn.sends (turn : AmoTurn config run op) (known : Listed run) (sound : Sound run.ctrl)
    (traced : Traced run) (tidy : Tidy config Trails run) (running : run.tick = some tick)
    (taken : Taken config tick run.ctrl front op back) (sends : Sends config run.ctrl front op) :
    AmoSends config run op := by
  have queue := taken.queue
  have member : op ∈ run.ctrl.rqstQ := by simp [queue]
  have filled : ∀ {other}, other ∈ front → front.isEmpty = false := by
    intro other passed
    exact List.isEmpty_eq_false_iff.mpr (List.ne_nil_of_mem passed)
  have free := sends.1
  rw [Ctrl.isPendingAMO, Bool.or_eq_false_iff] at free
  refine ⟨turn.covers, turn.word, turn.alone, ?_, ?_, ?_⟩
  · intro writes other pending hart kind before
    rcases pending with queued | ⟨flying, amo⟩
    · rcases queued_cases known sound traced queue queued before with passed | underway
      · rcases kind with write | amo
        · -- a WRITE that is passed over leaves no room for another one
          have saturated := taken.passed other passed
          have room := taken.avail
          rw [Tick.avail, writes] at room
          rw [Tick.avail, write, room] at saturated
          cases saturated
        · have origin := traced.queue other queued
          have read := amoRead_op traced origin amo
          have atomic := known.atomic traced origin (.inl amo)
          exact (tidy tick running).passes taken other passed ⟨⟨read, atomic⟩, writes, hart⟩
      · exact turn.program writes other underway hart before
    · exact turn.program writes other (.inl ⟨flying, amo⟩) hart before
  · intro other pending hart acquires amo before
    rcases pending with queued | ⟨flying, read⟩
    · rcases queued_cases known sound traced queue queued before with passed | underway
      · have held := free.1
        rw [Ctrl.isAQ, known.tabled traced queued amo, filled passed, if_neg (by decide), if_neg (by decide),
          List.any_eq_false] at held
        apply held other passed
        rw [known.atomic traced (traced.queue other queued) amo, hart, beq_self_eq_true, Bool.true_and,
          Bool.true_and]
        exact bne_iff_ne.mpr acquires
      · exact turn.acquire other underway hart acquires before
    · exact turn.acquire other (.inl ⟨flying, read⟩) hart acquires before
  · intro amo releases other live hart before
    rcases live with queued | flying
    · rcases queued_cases known sound traced queue queued before with passed | underway
      · have held := free.2
        rw [Ctrl.isRL, known.tabled traced member (.inl amo), filled passed, if_neg (by decide),
          if_neg (by decide), known.atomic traced (traced.queue op member) (.inl amo)] at held
        have any : (front.any fun earlier => earlier.hart == op.hart) = true :=
          List.any_eq_true.mpr ⟨other, passed, by simp [hart]⟩
        rw [any, Bool.true_and, Bool.and_true] at held
        exact releases (bne_eq_false_iff_eq.mp held)
      · exact turn.release amo releases other (.inr underway) hart before
    · exact turn.release amo releases other (.inl flying) hart before

end Turns

/-- The write of a call is on the interface. -/
def tookEffect (run : Run) (wire : List Request) (ptr : Nat) : Prop :=
  ∃ request ∈ wire, request.op.op = .WRITE ∧ position run request.op.ptr = ptr

/-- Every operation that left the queue was sent. -/
def Dispatched (run : Run) : Prop :=
  ∀ ptr < run.ctrl.nextPtr,
    (∃ op ∈ run.ctrl.rqstQ, op.ptr = ptr) ∨ ∃ request ∈ run.ctrl.wire, request.op.ptr = ptr

theorem Dispatched.step {event : Event} {after : Run} (sent : Dispatched run) (traced : Traced run)
    (plain : ∀ entry ∈ run.accepted, entry.2.readsWrites = true) (move : Move config run event after) :
    Dispatched after := by
  cases move with
  | refuse | start | idle => exact sent
  | accept call accepts hazards =>
    intro ptr old
    rcases Nat.lt_succ_iff_lt_or_eq.mp old with before | rfl
    · rcases sent ptr before with ⟨op, member, same⟩ | wired
      · exact .inl ⟨op, List.mem_append_left _ member, same⟩
      · exact .inr wired
    · exact .inl ⟨_, List.mem_append_right _ (List.mem_singleton.mpr rfl), rfl⟩
  | answer id data op created ctrl held answered =>
    intro ptr old
    have kept : ptr < run.ctrl.nextPtr → (∃ op ∈ ctrl.rqstQ, op.ptr = ptr) ∨
        ∃ request ∈ ctrl.wire, request.op.ptr = ptr := by
      intro before
      rw [answered.rqstQ, answered.wire]
      rcases sent ptr before with ⟨op, member, same⟩ | wired
      · exact .inl ⟨op, List.mem_append_left _ member, same⟩
      · exact .inr wired
    cases closes : closesAMO run.ctrl op with
    | false =>
      obtain ⟨rfl, _⟩ := answered.quiet closes
      exact kept (by simpa [answered.nextPtr] using old)
    | true =>
      obtain ⟨_, target, host, _, rfl, _⟩ := answered.modifies closes
      have bound : ptr < run.ctrl.nextPtr + 1 := by simpa [answered.nextPtr] using old
      rcases Nat.lt_succ_iff_lt_or_eq.mp bound with before | rfl
      · exact kept before
      · left
        rw [answered.rqstQ]
        exact ⟨_, List.mem_append_right _ (List.mem_singleton.mpr rfl), rfl⟩
  | fence tick front op back running taken kind =>
    have member : op ∈ run.ctrl.rqstQ := by simp [taken.queue]
    exact absurd kind ((traced.queue op member).not_fence plain)
  | dispatch tick front op back lane next running taken isLane sends =>
    intro ptr old
    rcases sent ptr old with ⟨other, member, same⟩ | ⟨request, wired, same⟩
    · rw [taken.queue, List.mem_append, List.mem_cons] at member
      rcases member with passed | rfl | later
      · exact .inl ⟨other, List.mem_append_left _ passed, same⟩
      · obtain ⟨request, built, wired, _⟩ := sentOff_wire config run.ctrl front back other lane
        refine .inr ⟨request, wired, ?_⟩
        rw [built]
        exact same
      · exact .inl ⟨other, List.mem_append_right _ later, same⟩
    · exact .inr ⟨request, List.mem_append_left _ wired, same⟩

/-- The operation is a part of the call. -/
structure Part (run : Run) (ptr : Nat) (call : Call) (op : RevMemOp) : Prop where
  position : position run op.ptr = ptr
  hart : op.hart = call.op.hart
  flags : op.flags = call.op.flags
  amo : call.isAMO = true → isAMORead run op ∨ isAMOWrite run op
  plain : call.isAMO = false → op.op = call.op.op

theorem part_of_accepted (traced : Traced run) {op : RevMemOp} {call : Call} (origin : Origin run op)
    (accepted : (op.ptr, call) ∈ run.accepted) : Part run op.ptr call op := by
  rcases origin with ⟨other, known, shape⟩ | ⟨read, other, written, _⟩
  · rw [traced.call_unique known accepted] at shape
    refine ⟨position_accepted traced accepted, ?_, ?_, ?_, ?_⟩
    · rw [shape]
    · rw [shape]
    · exact fun amo => .inl ⟨call, accepted, amo⟩
    · intro
      rw [shape]
  · exact (traced.apart accepted written).elim

theorem part_of_written (traced : Traced run) {op : RevMemOp} {call : Call} {read : Nat}
    (origin : Origin run op) (written : (read, op.ptr) ∈ run.writes)
    (accepted : (read, call) ∈ run.accepted) : Part run read call op ∧ op.op = .WRITE := by
  rcases origin with ⟨other, known, _⟩ | ⟨start, other, pair, known, amo, shape⟩
  · exact (traced.apart known written).elim
  · have same : start = read := by
      rw [← position_written traced pair, ← position_written traced written]
    subst same
    rw [traced.call_unique known accepted] at shape
    refine ⟨⟨position_written traced written, ?_, ?_, ?_, ?_⟩, ?_⟩
    · rw [shape]
      rfl
    · rw [shape]
      rfl
    · exact fun _ => .inr ⟨start, written⟩
    · intro plain
      rw [traced.call_unique known accepted, plain] at amo
      cases amo
    · rw [shape]
      rfl

-- Either the write of a call is on the interface, or a part of the call stands for it.
theorem effect_or_pending (sound : Sound run.ctrl) (traced : Traced run) (sent : Dispatched run) {ptr : Nat}
    {call : Call} (accepted : (ptr, call) ∈ run.accepted) (changes : call.changes = true) :
    tookEffect run run.ctrl.wire ptr ∨ ∃ op, Pending run op ∧ Part run ptr call op ∧
      (op.op = .WRITE ∨ isAMORead run op) := by
  have wired : ∀ request ∈ run.ctrl.wire, Origin run request.op := traced.wire
  cases amo : call.isAMO with
  | false =>
    have writes : call.op.op = .WRITE := by simpa [Call.changes, amo] using changes
    rcases sent ptr (traced.accepted_lt accepted) with ⟨op, member, rfl⟩ | ⟨request, member, rfl⟩
    · have part := part_of_accepted traced (traced.queue op member) accepted
      exact .inr ⟨op, .inl member, part, .inl ((part.plain amo).trans writes)⟩
    · have part := part_of_accepted traced (wired request member) accepted
      exact .inl ⟨request, member, (part.plain amo).trans writes, part.position⟩
  | true =>
    by_cases live : ∃ op, Live run.ctrl op ∧ op.ptr = ptr
    · obtain ⟨op, alive, rfl⟩ := live
      have origin : Origin run op := by
        rcases alive with member | ⟨id, held⟩
        · exact traced.queue op member
        · exact traced.held_origin sound held
      have read : isAMORead run op := ⟨call, accepted, amo⟩
      refine .inr ⟨op, ?_, part_of_accepted traced origin accepted, .inr read⟩
      rcases alive with member | held
      · exact .inl member
      · exact .inr ⟨held, read⟩
    · have dead : ptr ∈ run.ctrl.deleted := by
        apply sound.deleted_of (traced.accepted_lt accepted)
        · exact fun op member same => live ⟨op, .inl member, same⟩
        · exact fun entry held same => live ⟨entry.2, .inr ⟨entry.1, held⟩, same⟩
      obtain ⟨⟨read, write⟩, pair, same⟩ := List.mem_map.mp (traced.written ptr call accepted amo dead)
      obtain rfl : read = ptr := same
      have known : write < run.ctrl.nextPtr := by
        rw [← traced.tagged]
        exact List.mem_append_right _ (List.mem_map.mpr ⟨_, pair, rfl⟩)
      rcases sent write known with ⟨op, member, rfl⟩ | ⟨request, member, rfl⟩
      · obtain ⟨part, writes⟩ := part_of_written traced (traced.queue op member) pair accepted
        exact .inr ⟨op, .inl member, part, .inl writes⟩
      · obtain ⟨part, writes⟩ := part_of_written traced (wired request member) pair accepted
        exact .inl ⟨request, member, writes, part.position⟩

/-- The memory is that of the calls in `order`, and what stands between the READ and the WRITE of an AMO
holds what the WRITE will need. -/
structure Serial (base : Nat → Byte) (run : Run) (order : List (Nat × Call)) : Prop where
  memory : serial base order = served base run.ctrl.wire
  nodup : order.Nodup
  members : ∀ entry, entry ∈ order ↔ entry ∈ run.accepted ∧ entry.2.changes = true ∧
    tookEffect run run.ctrl.wire entry.1
  sorted : order.Pairwise fun first second =>
    first.2.op.hart = second.2.op.hart → first.1 < second.1
  closed : ∀ later ∈ order, ∀ entry ∈ run.accepted, entry.2.changes = true →
    entry.2.op.hart = later.2.op.hart → entry.1 < later.1 → entry ∈ order
  reads : ∀ id op, (id, op) ∈ run.ctrl.outstanding → isAMORead run op →
    op.size = 4 ∧ op.splitRqst ≤ 1 ∧ ∃ earlier request later,
      run.ctrl.wire = earlier ++ request :: later ∧ request.id = id ∧ request.op = op ∧
      request.addr = op.addr ∧ request.size = 4 ∧
      ∀ index < 4, served base earlier (op.addr + index) = served base run.ctrl.wire (op.addr + index)
  writes : ∀ op ∈ run.ctrl.rqstQ, ∀ read call, (read, op.ptr) ∈ run.writes →
    (read, call) ∈ run.accepted → call.op.size = 4 ∧
      ∀ index < 4, op.membuf index = amoResult (served base run.ctrl.wire) call.op index

variable {base : Nat → Byte} {order : List (Nat × Call)}

theorem Serial.turn (serial : Serial base run order) (fences : Nat) (tick : Option Tick) :
    Serial base { run with ctrl := { run.ctrl with numFence := fences }, tick := tick } order :=
  ⟨serial.memory, serial.nodup, serial.members, serial.sorted, serial.closed, serial.reads, serial.writes⟩

theorem Traced.written_lt (traced : Traced run) {pair : Nat × Nat} (written : pair ∈ run.writes) :
    pair.1 < run.ctrl.nextPtr ∧ pair.2 < run.ctrl.nextPtr := by
  obtain ⟨_, call, accepted, _⟩ := traced.ended pair written
  refine ⟨traced.accepted_lt accepted, ?_⟩
  rw [← traced.tagged]
  exact List.mem_append_right _ (List.mem_map.mpr ⟨_, written, rfl⟩)

theorem Serial.accept (serial : Serial base run order) (sound : Sound run.ctrl) (traced : Traced run)
    (call : Call) (hazards : Nat → Bool) :
    Serial base
      { run with
          ctrl := called run.ctrl call hazards
          accepted := run.accepted ++ [(run.ctrl.nextPtr, call)] } order := by
  have old : ∀ {ptr : Nat} {other : Call}, ptr < run.ctrl.nextPtr →
      (ptr, other) ∈ run.accepted ++ [(run.ctrl.nextPtr, call)] → (ptr, other) ∈ run.accepted := by
    intro ptr other before member
    rcases List.mem_append.mp member with accepted | new
    · exact accepted
    · have same := (Prod.mk.inj (List.mem_singleton.mp new)).1
      omega
  constructor
  case memory => exact serial.memory
  case nodup => exact serial.nodup
  case members =>
    rintro ⟨ptr, other⟩
    rw [serial.members]
    constructor
    · rintro ⟨accepted, effect⟩
      exact ⟨List.mem_append_left _ accepted, effect⟩
    · rintro ⟨accepted, changes, request, sent, writes, place⟩
      have before : ptr < run.ctrl.nextPtr := by
        rw [← show position run request.op.ptr = ptr from place]
        exact position_lt traced (traced.wire request sent)
      exact ⟨old before accepted, changes, request, sent, writes, place⟩
  case sorted => exact serial.sorted
  case closed =>
    rintro later done ⟨ptr, other⟩ accepted changes hart before
    have known := ((serial.members later).mp done).1
    have bound : later.1 < run.ctrl.nextPtr := traced.accepted_lt known
    exact serial.closed later done _ (old (Nat.lt_trans before bound) accepted) changes hart before
  case reads =>
    rintro id op held ⟨other, accepted, amo⟩
    exact serial.reads id op held ⟨other, old (sound.held_lt held).1 accepted, amo⟩
  case writes =>
    intro op member read other written accepted
    have bounds := traced.written_lt written
    rcases List.mem_append.mp member with queued | new
    · exact serial.writes op queued read other written (old bounds.1 accepted)
    · rw [List.mem_singleton.mp new] at bounds
      exact absurd bounds.2 (Nat.lt_irrefl _)

theorem position_append {ctrl : Ctrl} {read ptr : Nat} {created : List RevMemOp}
    (new : ∀ write ∈ created, write.ptr = run.ctrl.nextPtr) (old : ptr < run.ctrl.nextPtr) :
    position { run with ctrl := ctrl, writes := run.writes ++ created.map fun write => (read, write.ptr) }
      ptr = position run ptr := by
  have missing : (created.map fun write => (read, write.ptr)).find? (fun pair => pair.2 == ptr) = none := by
    rw [List.find?_eq_none]
    intro pair member same
    obtain ⟨write, created, rfl⟩ := List.mem_map.mp member
    have value := new write created
    simp only [beq_iff_eq] at same
    omega
  unfold position
  rw [List.find?_append, missing, Option.or_none]

-- The WRITE of an AMO is made from bytes that are still in memory.
theorem Serial.created (serial : Serial base run order) (sound : Sound run.ctrl) (traced : Traced run)
    {id : Nat} {data : Buffer} {op : RevMemOp} {created : List RevMemOp} {ctrl : Ctrl}
    (meets : serves base run (.respond id data)) (held : (id, op) ∈ run.ctrl.outstanding)
    (answered : Answered config run.ctrl id data op created ctrl) {call : Call}
    (accepted : (op.ptr, call) ∈ run.accepted) {write : RevMemOp} (member : write ∈ created) :
    call.op.size = 4 ∧
      ∀ index < 4, write.membuf index = amoResult (served base run.ctrl.wire) call.op index := by
  have closes : closesAMO run.ctrl op = true := by
    cases closes : closesAMO run.ctrl op with
    | true => rfl
    | false =>
      rw [(answered.quiet closes).1] at member
      cases member
  obtain ⟨_, target, host, aimed, rfl, stored⟩ := answered.modifies closes
  obtain ⟨_, other, known, amo⟩ := (traced.closes_iff sound held).mp closes
  rw [traced.call_unique known accepted] at amo
  obtain ⟨word, single, earlier, request, later, wire, same, built, addr, size, kept⟩ :=
    serial.reads id op held ⟨call, accepted, amo⟩
  have shape : op = { call.op with ptr := op.ptr, splitRqst := op.splitRqst } := by
    rcases traced.held_origin sound held with ⟨known, listed, shape⟩ | ⟨read, known, written, _⟩
    · rw [traced.call_unique listed accepted] at shape
      exact shape
    · exact (traced.apart accepted written).elim
  have reads : request.op.op = .READ := by
    rw [built, shape]
    exact Call.amo_op amo
  have answer : ∀ index < 4, data index = served base run.ctrl.wire (op.addr + index) := by
    intro index inside
    rw [meets earlier request later wire same reads index (by omega), addr]
    exact kept index inside
  rw [List.mem_singleton.mp member]
  constructor
  · rw [shape] at word
    exact word
  · intro index inside
    change amoBuffer config host target op index = _
    rw [stored single, amoBuffer_eq run.ctrl.host target config _ word answer inside, shape]
    rfl

theorem Serial.answer (serial : Serial base run order) (sound : Sound run.ctrl) (traced : Traced run)
    {id : Nat} {data : Buffer} {op : RevMemOp} {created : List RevMemOp} {ctrl : Ctrl}
    (meets : serves base run (.respond id data)) (held : (id, op) ∈ run.ctrl.outstanding)
    (answered : Answered config run.ctrl id data op created ctrl) :
    Serial base
      { run with
          ctrl := ctrl
          writes := run.writes ++ created.map fun write => (op.ptr, write.ptr) } order := by
  have new := created_ptr answered
  have effect : ∀ ptr, tookEffect
      { run with
          ctrl := ctrl
          writes := run.writes ++ created.map fun write => (op.ptr, write.ptr) } ctrl.wire ptr ↔
      tookEffect run run.ctrl.wire ptr := by
    intro ptr
    unfold tookEffect
    rw [answered.wire]
    constructor
    · rintro ⟨request, sent, writes, place⟩
      rw [position_append new (sound.sent request sent).1] at place
      exact ⟨request, sent, writes, place⟩
    · rintro ⟨request, sent, writes, place⟩
      refine ⟨request, sent, writes, ?_⟩
      rw [position_append new (sound.sent request sent).1]
      exact place
  constructor
  case memory =>
    rw [answered.wire]
    exact serial.memory
  case nodup => exact serial.nodup
  case members =>
    intro entry
    rw [serial.members, effect]
  case sorted => exact serial.sorted
  case closed => exact serial.closed
  case reads =>
    intro key other flying amo
    rw [answered.wire]
    rw [answered.outstanding] at flying
    exact serial.reads key other (List.mem_of_mem_filter flying) amo
  case writes =>
    intro other member read call written accepted
    rw [answered.wire]
    rw [answered.rqstQ] at member
    rcases List.mem_append.mp member with queued | fresh
    · apply serial.writes other queued read call _ accepted
      rcases List.mem_append.mp written with old | added
      · exact old
      · obtain ⟨write, made, same⟩ := List.mem_map.mp added
        have before := sound.queued_lt queued
        rw [← (Prod.mk.inj same).2, new write made] at before
        exact absurd before (Nat.lt_irrefl _)
    · have place : read = op.ptr := by
        rcases List.mem_append.mp written with old | added
        · have bound := (traced.written_lt old).2
          simp only [new other fresh] at bound
          exact absurd bound (Nat.lt_irrefl _)
        · obtain ⟨write, _, same⟩ := List.mem_map.mp added
          exact (Prod.mk.inj same).1.symm
      subst place
      exact serial.created sound traced meets held answered accepted fresh

section Dispatch
variable {front back : List RevMemOp} {op : RevMemOp} {lane : Lane}

theorem single_piece (covers : Covers config op) (single : (piecesOf config op).length = 1) :
    piecesOf config op = [(op.addr, op.size)] := by
  obtain ⟨⟨addr, size⟩, pieces⟩ := List.length_eq_one_iff.mp single
  obtain ⟨contiguous, total⟩ := covers
  rw [pieces] at contiguous total ⊢
  simp only [Contiguous, List.map_cons, List.map_nil, List.sum_cons, List.sum_nil, Nat.add_zero]
    at contiguous total
  rw [contiguous.1, total]

theorem Serial.sendRead (serial : Serial base run order) (queue : run.ctrl.rqstQ = front ++ op :: back)
    (turn : AmoSends config run op) (reads : op.op ≠ .WRITE) (tick : Option Tick) :
    Serial base { run with ctrl := sentOff config run.ctrl front op back lane, tick := tick } order := by
  have memory : served base (sentOff config run.ctrl front op back lane).wire =
      served base run.ctrl.wire := by
    rw [served_sentOff base turn.covers, if_neg reads]
  have wire : (sentOff config run.ctrl front op back lane).wire = run.ctrl.wire ++
      wireOf (split config op) (flagsOf config op) run.ctrl.nextId 0 (piecesOf config op) := rfl
  constructor
  case memory => exact serial.memory.trans memory.symm
  case nodup => exact serial.nodup
  case members =>
    intro entry
    rw [serial.members]
    constructor
    · rintro ⟨accepted, changes, request, sent, writes, place⟩
      exact ⟨accepted, changes, request, List.mem_append_left _ sent, writes, place⟩
    · rintro ⟨accepted, changes, request, sent, writes, place⟩
      rcases List.mem_append.mp sent with old | new
      · exact ⟨accepted, changes, request, old, writes, place⟩
      · rw [(wireOf_mem new).1] at writes
        exact absurd writes reads
  case sorted => exact serial.sorted
  case closed => exact serial.closed
  case reads =>
    intro id other held amo
    rw [memory, wire]
    rcases mem_sentOff.mp held with old | ⟨new, low, high⟩
    · obtain ⟨word, single, earlier, request, later, parts, rest⟩ := serial.reads id other old amo
      refine ⟨word, single, earlier, request, later ++ wireOf (split config op) (flagsOf config op)
        run.ctrl.nextId 0 (piecesOf config op), ?_, rest⟩
      rw [parts, List.append_assoc]
      rfl
    · obtain rfl : other = split config op := new
      obtain ⟨word, single⟩ := turn.word amo
      have pieces := single_piece turn.covers single
      rw [single] at high
      have first : id = run.ctrl.nextId := by
        simp only at low high
        omega
      refine ⟨word, Nat.le_of_eq single, run.ctrl.wire, ?_⟩
      rw [pieces, wireOf, wireOf]
      exact ⟨_, [], rfl, first.symm, rfl, rfl, word, fun index inside => rfl⟩
  case writes =>
    intro other member read call written accepted
    rw [memory]
    exact serial.writes other ((sublist_taken queue).subset member) read call written accepted

-- Two writes with one place in program order are one operation.
theorem position_inj (traced : Traced run) {one other : RevMemOp} (first : Origin run one)
    (second : Origin run other) (writes : one.op = .WRITE) (writes' : other.op = .WRITE)
    (same : position run one.ptr = position run other.ptr) : one.ptr = other.ptr := by
  have notRead : ∀ {op : RevMemOp} {call : Call}, op.op = .WRITE →
      op = { call.op with ptr := op.ptr, splitRqst := op.splitRqst } → call.isAMO = true → False := by
    intro op call writes shape amo
    rw [shape] at writes
    exact absurd (writes.symm.trans (Call.amo_op amo)) (by decide)
  have mixed : ∀ {one other : RevMemOp} {call : Call} {read : Nat}, one.op = .WRITE →
      (one.ptr, call) ∈ run.accepted → one = { call.op with ptr := one.ptr, splitRqst := one.splitRqst } →
      (read, other.ptr) ∈ run.writes → position run one.ptr = position run other.ptr → False := by
    intro one other call read writes accepted shape written same
    rw [position_accepted traced accepted, position_written traced written] at same
    obtain ⟨_, amoCall, known, amo⟩ := traced.ended _ written
    rw [← show one.ptr = read from same] at known
    rw [traced.call_unique known accepted] at amo
    exact notRead writes shape amo
  rcases first with ⟨call, accepted, shape⟩ | ⟨read, call, written, _⟩
  · rcases second with ⟨call', accepted', _⟩ | ⟨read', _, written', _⟩
    · rw [position_accepted traced accepted, position_accepted traced accepted'] at same
      exact same
    · exact (mixed writes accepted shape written' same).elim
  · rcases second with ⟨call', accepted', shape'⟩ | ⟨read', _, written', _⟩
    · exact (mixed writes' accepted' shape' written same.symm).elim
    · rw [position_written traced written, position_written traced written'] at same
      subst same
      exact (Prod.mk.inj (List.inj_on_of_nodup_map traced.once written written' rfl)).2

theorem unsent_effect (sound : Sound run.ctrl) (traced : Traced run) (member : op ∈ run.ctrl.rqstQ)
    (writes : op.op = .WRITE) : ¬ tookEffect run run.ctrl.wire (position run op.ptr) := by
  rintro ⟨request, sent, writes', same⟩
  have equal := position_inj traced (traced.wire request sent) (traced.queue op member) writes' writes same
  have unqueued := (sound.sent request sent).2
  rw [equal] at unqueued
  exact List.countP_eq_zero.mp unqueued op member (by simp)

-- A queued write acts on the memory as its call does in one step.
theorem Serial.entry (serial : Serial base run order) (traced : Traced run) (member : op ∈ run.ctrl.rqstQ)
    (writes : op.op = .WRITE) : ∃ ptr call, (ptr, call) ∈ run.accepted ∧ call.changes = true ∧
      Part run ptr call op ∧ call.effect (served base run.ctrl.wire) =
        flatStore (served base run.ctrl.wire) op.addr op.size op.membuf := by
  have origin := traced.queue op member
  rcases origin with ⟨call, accepted, shape⟩ | ⟨read, call, written, accepted, amo, shape⟩
  · have kind : call.op.op = .WRITE := by
      rw [shape] at writes
      exact writes
    have plain : call.isAMO = false := by
      cases amo : call.isAMO with
      | false => rfl
      | true => exact absurd (kind.symm.trans (Call.amo_op amo)) (by decide)
    refine ⟨op.ptr, call, accepted, by simp [Call.changes, kind],
      part_of_accepted traced (traced.queue op member) accepted, ?_⟩
    rw [Call.effect, plain, if_neg (by decide), if_pos kind, shape]
  · obtain ⟨word, buffer⟩ := serial.writes op member read call written accepted
    refine ⟨read, call, accepted, by simp [Call.changes, amo],
      (part_of_written traced (traced.queue op member) written accepted).1, ?_⟩
    rw [Call.effect, if_pos amo]
    have addr : op.addr = call.op.addr := by
      rw [shape]
      rfl
    have size : op.size = call.op.size := by
      rw [shape]
      rfl
    rw [addr, size]
    apply flatStore_congr
    intro index inside
    exact (buffer index (by omega)).symm

theorem amoResult_congr {memory other : Nat → Byte} (word : op.size = 4)
    (agree : ∀ index < 4, memory (op.addr + index) = other (op.addr + index)) :
    amoResult memory op = amoResult other op := by
  unfold amoResult
  have same : (word32 fun index => memory (op.addr + index)) = word32 fun index => other (op.addr + index) :=
    (word32_congr _ _ agree).trans (word32_congr _ _ fun _ _ => rfl).symm
  rw [if_pos word, if_pos word, same]

-- What is not sent yet is untouched by a write that keeps off its bytes.
theorem store_apart {memory : Nat → Byte} {data : Buffer} {addr : Nat} (other : RevMemOp)
    (word : other.size = 4) (same : other.addr = addr) (apart : ¬ Overlap other op) :
    ∀ index < 4, flatStore memory op.addr op.size data (addr + index) = memory (addr + index) := by
  intro index inside
  apply flatStore_outside
  unfold Overlap at apart
  omega

theorem tookEffect_sentOff (writes : op.op = .WRITE) (tick : Option Tick) (place : Nat) :
    tookEffect { run with ctrl := sentOff config run.ctrl front op back lane, tick := tick }
        (sentOff config run.ctrl front op back lane).wire place ↔
      tookEffect run run.ctrl.wire place ∨ place = position run op.ptr := by
  constructor
  · rintro ⟨request, wired, kind, same⟩
    rcases List.mem_append.mp wired with old | new
    · exact .inl ⟨request, old, kind, same⟩
    · rw [(wireOf_mem new).1] at same
      exact .inr same.symm
  · rintro (⟨request, old, kind, same⟩ | rfl)
    · exact ⟨request, List.mem_append_left _ old, kind, same⟩
    · obtain ⟨request, built, wired, _⟩ := sentOff_wire config run.ctrl front back op lane
      refine ⟨request, wired, ?_, ?_⟩
      · rw [built]
        exact writes
      · rw [built]
        rfl

section Write
variable (serial : Serial base run order) (sound : Sound run.ctrl) (traced : Traced run)
  (queue : run.ctrl.rqstQ = front ++ op :: back) (turn : AmoSends config run op) (writes : op.op = .WRITE)
include serial sound traced queue turn writes

theorem Serial.reads_sentWrite {id : Nat} {other : RevMemOp}
    (held : (id, other) ∈ (sentOff config run.ctrl front op back lane).outstanding)
    (amo : isAMORead run other) : other.size = 4 ∧ other.splitRqst ≤ 1 ∧ ∃ earlier request later,
      (sentOff config run.ctrl front op back lane).wire = earlier ++ request :: later ∧
      request.id = id ∧ request.op = other ∧ request.addr = other.addr ∧ request.size = 4 ∧
      ∀ index < 4, served base earlier (other.addr + index) =
        served base (sentOff config run.ctrl front op back lane).wire (other.addr + index) := by
  have member : op ∈ run.ctrl.rqstQ := by simp [queue]
  rcases mem_sentOff.mp held with old | ⟨new, _⟩
  · obtain ⟨word, single, earlier, request, later, parts, same, built, addr, size, kept⟩ :=
      serial.reads id other old amo
    have apart : ¬ Overlap other op := by
      apply turn.alone writes other (.inl ⟨⟨id, old⟩, amo⟩)
      intro equal
      have unqueued := (sound.held_lt old).2.1
      exact List.countP_eq_zero.mp unqueued op member (by simp [equal])
    refine ⟨word, single, earlier, request, later ++ wireOf (split config op) (flagsOf config op)
      run.ctrl.nextId 0 (piecesOf config op), ?_, same, built, addr, size, ?_⟩
    · change run.ctrl.wire ++ _ = _
      rw [parts, List.append_assoc]
      rfl
    · intro index inside
      rw [served_sentOff base turn.covers, if_pos writes, store_apart other word rfl apart index inside]
      exact kept index inside
  · obtain rfl : other = split config op := new
    obtain ⟨known, listed, isAmo⟩ := amo
    rcases traced.queue op member with ⟨built, listed', shape⟩ | ⟨read, built, written, _⟩
    · rw [traced.call_unique listed' listed] at shape
      rw [shape] at writes
      exact absurd (writes.symm.trans (Call.amo_op isAmo)) (by decide)
    · exact (traced.apart listed written).elim

theorem Serial.writes_sentWrite {other : RevMemOp} (waits : other ∈ front ++ back) {read : Nat} {known : Call}
    (written : (read, other.ptr) ∈ run.writes) (listed : (read, known) ∈ run.accepted) :
    known.op.size = 4 ∧ ∀ index < 4, other.membuf index =
      amoResult (served base (sentOff config run.ctrl front op back lane).wire) known.op index := by
  have old : other ∈ run.ctrl.rqstQ := (sublist_taken queue).subset waits
  obtain ⟨word, buffer⟩ := serial.writes other old read known written listed
  refine ⟨word, ?_⟩
  have differ : other.ptr ≠ op.ptr := by
    have ahead := (sound.front_lt queue).1
    have behind := (sound.front_lt queue).2
    rcases List.mem_append.mp waits with passed | later
    · exact Nat.ne_of_lt (ahead other passed)
    · exact Nat.ne_of_gt (behind other later)
  have apart := turn.alone writes other (.inr ⟨old, read, written⟩) differ
  have shape : other.addr = known.op.addr ∧ other.size = known.op.size := by
    rcases traced.queue other old with ⟨call, listed', _⟩ | ⟨read', call, written', listed', _, shape⟩
    · exact (traced.apart listed' written).elim
    · have same : read' = read := by
        rw [← position_written traced written', ← position_written traced written]
      subst same
      rw [traced.call_unique listed' listed] at shape
      rw [shape]
      exact ⟨rfl, rfl⟩
  intro index inside
  rw [served_sentOff base turn.covers, if_pos writes, amoResult_congr word
    (store_apart other (shape.2.trans word) shape.1 apart)]
  exact buffer index inside

theorem Serial.sendWrite (sent : Dispatched run) (tick : Option Tick) :
    ∃ entry, Serial base { run with ctrl := sentOff config run.ctrl front op back lane, tick := tick }
      (order ++ [entry]) := by
  have member : op ∈ run.ctrl.rqstQ := by simp [queue]
  obtain ⟨ptr, call, accepted, changes, part, effect⟩ := serial.entry traced member writes
  have absent : ¬ tookEffect run run.ctrl.wire ptr := by
    rw [← part.position]
    exact unsent_effect sound traced member writes
  have fresh : (ptr, call) ∉ order := fun done => absent ((serial.members _).mp done).2.2
  refine ⟨(ptr, call), ?_⟩
  constructor
  case memory =>
    rw [served_sentOff base turn.covers, if_pos writes, ← effect, ← serial.memory, MemCtrl.serial,
      List.foldl_append]
    rfl
  case nodup => exact List.nodup_append.mpr ⟨serial.nodup, List.nodup_singleton _, by
    rintro entry done other new rfl
    rw [List.mem_singleton.mp new] at done
    exact fresh done⟩
  case members =>
    rintro ⟨place, other⟩
    rw [List.mem_append, serial.members, tookEffect_sentOff writes, part.position]
    constructor
    · rintro (⟨known, change, old⟩ | new)
      · exact ⟨known, change, .inl old⟩
      · rw [List.mem_singleton.mp new]
        exact ⟨accepted, changes, .inr rfl⟩
    · rintro ⟨known, change, old | rfl⟩
      · exact .inl ⟨known, change, old⟩
      · rw [traced.call_unique known accepted]
        exact .inr (List.mem_singleton.mpr rfl)
  case sorted =>
    rw [List.pairwise_append]
    refine ⟨serial.sorted, List.pairwise_singleton _ _, ?_⟩
    intro earlier done entry new hart
    rw [List.mem_singleton.mp new] at hart ⊢
    by_contra later
    have took := ((serial.members earlier).mp done).2.2
    have other : earlier.1 ≠ ptr := by
      intro same
      rw [same] at took
      exact absent took
    exact fresh (serial.closed earlier done _ accepted changes hart.symm (by simp only at later ⊢; omega))
  case closed =>
    intro later done entry known change hart before
    rcases List.mem_append.mp done with old | new
    · exact List.mem_append_left _ (serial.closed later old entry known change hart before)
    · rw [List.mem_singleton.mp new] at hart before
      rcases effect_or_pending sound traced sent known change with took | ⟨other, pending, piece, kind⟩
      · exact List.mem_append_left _ ((serial.members entry).mpr ⟨known, change, took⟩)
      · have program := turn.program writes other pending (by rw [piece.hart, hart, part.hart]) kind
        rw [piece.position, part.position] at program
        exact absurd before program
  case reads => exact fun id other held amo => serial.reads_sentWrite sound traced queue turn writes held amo
  case writes =>
    exact fun other waits read known written listed =>
      serial.writes_sentWrite sound traced queue turn writes waits written listed

end Write
end Dispatch

/-- No request of a hart is sent before the whole write of an earlier AQ AMO of the hart. -/
def AcquireOrdered (run : Run) : Prop :=
  ∀ earlier request later, run.ctrl.wire = earlier ++ request :: later →
    ∀ ptr call, (ptr, call) ∈ run.accepted → call.isAMO = true → (call.op.flags &&& F_AQ) ≠ 0 →
      call.op.hart = request.op.hart → ptr < position run request.op.ptr →
      tookEffect run earlier ptr ∧ ¬ tookEffect run later ptr

def Completed (run : Run) (ptr : Nat) (call : Call) : Prop :=
  ptr ∈ run.ctrl.deleted ∧
    (call.isAMO = true → ∃ write, (ptr, write) ∈ run.writes ∧ write ∈ run.ctrl.deleted)

/-- Nothing of an RL AMO is sent before the earlier operations of its hart are complete. -/
def ReleaseOrdered (run : Run) : Prop :=
  ∀ request ∈ run.ctrl.wire, ∀ ptr call, (ptr, call) ∈ run.accepted → call.isAMO = true →
    (call.op.flags &&& F_RL) ≠ 0 → position run request.op.ptr = ptr →
    ∀ earlier other, (earlier, other) ∈ run.accepted → other.op.hart = call.op.hart → earlier < ptr →
      Completed run earlier other

theorem AcquireOrdered.step {event : Event} {after : Run} (ordered : AcquireOrdered run)
    (sound : Sound run.ctrl) (traced : Traced run) (sent : Dispatched run)
    (turns : AmoRun config run) (move : Move config run event after) : AcquireOrdered after := by
  cases move with
  | refuse | start | idle => exact ordered
  | accept call accepts hazards =>
    intro earlier request later parts ptr other accepted amo acquires hart before
    have wired : request ∈ run.ctrl.wire := by
      rw [show run.ctrl.wire = earlier ++ request :: later from parts]
      simp
    have bound := position_lt traced (traced.wire request wired)
    rcases List.mem_append.mp accepted with old | new
    · exact ordered earlier request later parts ptr other old amo acquires hart before
    · rw [(Prod.mk.inj (List.mem_singleton.mp new)).1] at before
      exact absurd (Nat.lt_trans before bound) (Nat.lt_irrefl _)
  | answer id data op created ctrl held answered =>
    intro earlier request later parts ptr other accepted amo acquires hart before
    have wire : run.ctrl.wire = earlier ++ request :: later := by
      rw [← answered.wire]
      exact parts
    have stays : ∀ request ∈ run.ctrl.wire, position
        { run with
            ctrl := ctrl
            writes := run.writes ++ created.map fun write => (op.ptr, write.ptr) } request.op.ptr =
        position run request.op.ptr := fun request wired =>
      position_append (created_ptr answered) (sound.sent request wired).1
    rw [stays request (by simp [wire])] at before
    obtain ⟨took, never⟩ := ordered earlier request later wire ptr other accepted amo acquires hart before
    constructor
    · obtain ⟨write, wired, kind, place⟩ := took
      exact ⟨write, wired, kind, (stays write (by simp [wire, wired])).trans place⟩
    · rintro ⟨write, wired, kind, place⟩
      exact never ⟨write, wired, kind, (stays write (by simp [wire, wired])).symm.trans place⟩
  | fence tick front op back running taken kind =>
    exact ordered
  | dispatch tick front op back lane next running taken isLane sends =>
    have turn := turns tick front op back running taken sends
    have member : op ∈ run.ctrl.rqstQ := by simp [taken.queue]
    intro earlier request later parts ptr call accepted amo acquires hart before
    have changes : call.changes = true := by simp [Call.changes, amo]
    rcases split_append parts with ⟨middle, old, rfl⟩ | ⟨extra, rfl, new⟩
    · obtain ⟨took, never⟩ :=
        ordered earlier request middle old ptr call accepted amo acquires hart before
      refine ⟨took, ?_⟩
      rintro ⟨write, wired, kind, place⟩
      rcases List.mem_append.mp wired with early | late
      · exact never ⟨write, early, kind, place⟩
      · -- the write of the AMO is on the interface and cannot be in the queue
        rw [(wireOf_mem late).1] at kind place
        apply unsent_effect sound traced member kind
        obtain ⟨first, listed, writes, same⟩ := took
        refine ⟨first, ?_, writes, same.trans place.symm⟩
        rw [old]
        exact List.mem_append_left _ listed
    · have fresh : ∀ other ∈ extra ++ request :: later, other.op = split config op := by
        rw [← new]
        exact fun other wired => (wireOf_mem wired).1
      rw [fresh request (by simp)] at hart before
      constructor
      · rcases effect_or_pending sound traced sent accepted changes with
          ⟨write, wired, kind, place⟩ | ⟨other, pending, part, _⟩
        · exact ⟨write, List.mem_append_left _ wired, kind, place⟩
        · have bits := part.flags
          have blocked := turn.acquire other pending (part.hart.trans hart) (by rw [bits]; exact acquires)
            (part.amo amo)
          rw [part.position] at blocked
          exact absurd before blocked
      · rintro ⟨write, wired, kind, place⟩
        rw [fresh write (by simp [wired])] at place
        exact absurd before (Nat.not_lt.mpr (Nat.le_of_eq place))

theorem Completed.mono {after : Run} {ptr : Nat} {call : Call} (completed : Completed run ptr call)
    (deleted : ∀ ptr ∈ run.ctrl.deleted, ptr ∈ after.ctrl.deleted)
    (writes : ∀ pair ∈ run.writes, pair ∈ after.writes) : Completed after ptr call := by
  refine ⟨deleted _ completed.1, ?_⟩
  intro amo
  obtain ⟨write, written, dead⟩ := completed.2 amo
  exact ⟨write, writes _ written, deleted _ dead⟩

-- An operation of which no part is queued or in flight is complete.
theorem completed_of (sound : Sound run.ctrl) (traced : Traced run) {ptr : Nat} {call : Call}
    (accepted : (ptr, call) ∈ run.accepted)
    (settled : ∀ op, Live run.ctrl op → op.hart = call.op.hart → position run op.ptr ≠ ptr) :
    Completed run ptr call := by
  have origin : ∀ op, Live run.ctrl op → Origin run op := by
    rintro op (member | ⟨id, held⟩)
    · exact traced.queue op member
    · exact traced.held_origin sound held
  have dead : ptr ∈ run.ctrl.deleted := by
    have gone : ∀ op, Live run.ctrl op → op.ptr ≠ ptr := by
      rintro op live rfl
      have part := part_of_accepted traced (origin op live) accepted
      exact settled op live part.hart part.position
    exact sound.deleted_of (traced.accepted_lt accepted) (fun op member => gone op (.inl member))
      fun entry held => gone entry.2 (.inr ⟨entry.1, held⟩)
  refine ⟨dead, ?_⟩
  intro amo
  obtain ⟨⟨read, write⟩, written, same⟩ := List.mem_map.mp (traced.written ptr call accepted amo dead)
  obtain rfl : read = ptr := same
  refine ⟨write, written, ?_⟩
  have gone : ∀ op, Live run.ctrl op → op.ptr ≠ write := by
    rintro op live rfl
    have part := (part_of_written traced (origin op live) written accepted).1
    exact settled op live part.hart part.position
  exact sound.deleted_of (traced.written_lt written).2 (fun op member => gone op (.inl member))
    fun entry held => gone entry.2 (.inr ⟨entry.1, held⟩)

theorem ReleaseOrdered.step {event : Event} {after : Run} (ordered : ReleaseOrdered run)
    (sound : Sound run.ctrl) (traced : Traced run) (sent : Dispatched run)
    (turns : AmoRun config run) (move : Move config run event after) : ReleaseOrdered after := by
  cases move with
  | refuse | start | idle => exact ordered
  | accept call accepts hazards =>
    intro request wired ptr other accepted amo releases place earlier first known hart before
    have bound := position_lt traced (traced.wire request wired)
    rw [show position run request.op.ptr = ptr from place] at bound
    have old : ∀ {key : Nat} {entry : Call}, key < run.ctrl.nextPtr →
        (key, entry) ∈ run.accepted ++ [(run.ctrl.nextPtr, call)] → (key, entry) ∈ run.accepted := by
      intro key entry less listed
      rcases List.mem_append.mp listed with accepted | new
      · exact accepted
      · have same := (Prod.mk.inj (List.mem_singleton.mp new)).1
        omega
    exact ordered request wired ptr other (old bound accepted) amo releases place earlier first
      (old (Nat.lt_trans before bound) known) hart before
  | answer id data op created ctrl held answered =>
    intro request wired ptr other accepted amo releases place earlier first known hart before
    rw [answered.wire] at wired
    rw [position_append (created_ptr answered) (sound.sent request wired).1] at place
    apply (ordered request wired ptr other accepted amo releases place earlier first known hart before).mono
    · intro ptr dead
      rw [answered.deleted]
      exact List.mem_append_left _ dead
    · exact fun pair written => List.mem_append_left _ written
  | fence tick front op back running taken kind =>
    intro request wired ptr other accepted amo releases place earlier first known hart before
    apply (ordered request wired ptr other accepted amo releases place earlier first known hart before).mono
    · exact fun ptr dead => List.mem_append_left _ dead
    · exact fun pair written => written
  | dispatch tick front op back lane next running taken isLane sends =>
    have turn := turns tick front op back running taken sends
    have member : op ∈ run.ctrl.rqstQ := by simp [taken.queue]
    intro request wired ptr call accepted amo releases place earlier first known hart before
    rcases List.mem_append.mp wired with old | new
    · exact ordered request old ptr call accepted amo releases place earlier first known hart before
    · rw [(wireOf_mem new).1] at place
      rcases traced.queue op member with ⟨other, listed, _⟩ | ⟨read, other, written, listed, _⟩
      · -- the READ: nothing of its hart in front of it is live
        obtain rfl : op.ptr = ptr := (position_accepted traced listed).symm.trans place
        have part := part_of_accepted traced (traced.queue op member) accepted
        apply completed_of sound traced known
        intro other live same at'
        have blocked := turn.release ⟨call, accepted, amo⟩ (by rw [part.flags]; exact releases) other live
          (by rw [same, hart, part.hart])
        rw [at', position_accepted traced accepted] at blocked
        exact blocked before
      · -- the WRITE: its READ went the same way before
        obtain rfl : read = ptr := (position_written traced written).symm.trans place
        have dead := (traced.ended _ written).1
        rcases sent read (traced.accepted_lt accepted) with ⟨queued, waits, same⟩ | ⟨request, wired, same⟩
        · have placed := (sound.taken_free (List.append_of_mem waits).choose_spec.choose_spec).2.2
          rw [same] at placed
          exact absurd dead (List.count_eq_zero.mp placed)
        · have place : position run request.op.ptr = read := by
            rw [same]
            exact position_accepted traced accepted
          exact ordered request wired read call accepted amo releases place earlier first known hart before

/-- What the steps of a run keep together. -/
structure AmoState (config : Config) (base : Nat → Byte) (run : Run) : Prop where
  serial : ∃ order, Serial base run order
  dispatched : Dispatched run
  acquire : AcquireOrdered run
  release : ReleaseOrdered run
  listed : Listed run
  tidy : Tidy config Trails run

theorem amoState_new (host : Nat → Byte) (hazards : Nat → Bool) :
    AmoState config base ⟨Ctrl.new host hazards, none, [], []⟩ := by
  constructor
  · refine ⟨[], ?_⟩
    constructor <;> simp [Ctrl.new, serial, served]
  · intro ptr old
    exact absurd old (Nat.not_lt_zero _)
  · intro earlier request later parts
    simp [Ctrl.new] at parts
  · intro request wired
    cases wired
  · exact listed_new host hazards
  · intro tick running
    cases running

theorem reached_amoState (reached : Reached config (amoGood config base) run) : AmoState config base run := by
  induction reached with
  | start host hazards => exact amoState_new host hazards
  | @step run after before event legal meets stepped ih =>
    have sound := reached_sound before
    have traced := reached_traced before
    have plain := reached_readsWrites (before.mono fun _ _ good => good.1)
    obtain ⟨order, held⟩ := ih.serial
    have move := step_move sound legal stepped
    have turns : AmoRun config run := by
      intro tick front op back running taken sends
      cases event with
      | next =>
        have turn := meets.2.2 tick front op back running taken sends
        exact turn.sends ih.listed sound traced ih.tidy running taken sends
      | respond id data => exact absurd (running.symm.trans legal.1) (by simp)
      | send call => exact absurd (running.symm.trans legal) (by simp)
      | begin => exact absurd (running.symm.trans legal) (by simp)
    have tidy : event = .begin → Untangled config Trails Tick.new run.ctrl.rqstQ := by
      rintro rfl
      exact meets.2.2
    refine ⟨?_, ih.dispatched.step traced plain move, ih.acquire.step sound traced ih.dispatched turns move,
      ih.release.step sound traced ih.dispatched turns move, ih.listed.step sound traced move,
      ih.tidy.step sound legal tidy stepped⟩
    cases move with
    | refuse => exact ⟨order, held⟩
    | accept call accepts hazards => exact ⟨order, held.accept sound traced call hazards⟩
    | answer id data op created ctrl waits answered =>
      exact ⟨order, held.answer sound traced meets.2.1 waits answered⟩
    | start fences tick opening => exact ⟨order, held.turn fences tick⟩
    | idle tick => exact ⟨order, held.turn run.ctrl.numFence tick⟩
    | fence tick front op back running taken kind =>
      have member : op ∈ run.ctrl.rqstQ := by simp [taken.queue]
      exact absurd kind ((traced.queue op member).not_fence plain)
    | dispatch tick front op back lane next running taken isLane sends =>
      have turn := turns tick front op back running taken sends
      by_cases writes : op.op = .WRITE
      · obtain ⟨entry, longer⟩ := held.sendWrite sound traced taken.queue turn writes ih.dispatched next
        exact ⟨_, longer⟩
      · exact ⟨order, held.sendRead taken.queue turn writes next⟩

/-- A serial order of the AMOs and writes that keeps each hart's program order. -/
def Serializable (base : Nat → Byte) (run : Run) : Prop :=
  ∃ order, order.Perm (run.accepted.filter fun entry => entry.2.changes) ∧
    (order.Pairwise fun first second => first.2.op.hart = second.2.op.hart → first.1 < second.1) ∧
    served base run.ctrl.wire = serial base order

theorem AmoState.serializable (state : AmoState config base run) (sound : Sound run.ctrl)
    (traced : Traced run) (queue : run.ctrl.rqstQ = []) (landed : run.ctrl.outstanding = []) :
    Serializable base run := by
  obtain ⟨order, held⟩ := state.serial
  refine ⟨order, ?_, held.sorted, held.memory.symm⟩
  have distinct : run.accepted.Nodup := ((List.nodup_append.mp traced.distinct).1).of_map Prod.fst
  rw [List.perm_ext_iff_of_nodup held.nodup (distinct.filter _)]
  intro entry
  rw [held.members, List.mem_filter]
  constructor
  · exact fun ⟨accepted, changes, _⟩ => ⟨accepted, changes⟩
  · rintro ⟨accepted, changes⟩
    refine ⟨accepted, changes, ?_⟩
    rcases effect_or_pending sound traced state.dispatched accepted changes with took | ⟨op, pending, _⟩
    · exact took
    · rcases pending with member | ⟨⟨id, flying⟩, _⟩
      · rw [queue] at member
        cases member
      · rw [landed] at flying
        cases flying

/-- In a run whose turns all meet the condition the memory ends as after a serial order of the AMOs and
writes, and AQ and RL order the requests. -/
theorem amo_serializable (reached : Reached config (amoGood config base) run) :
    (run.ctrl.rqstQ = [] → run.ctrl.outstanding = [] → Serializable base run) ∧
      AcquireOrdered run ∧ ReleaseOrdered run := by
  have state := reached_amoState reached
  exact ⟨state.serializable (reached_sound reached) (reached_traced reached), state.acquire, state.release⟩

end Program

section Two

/-- AMOs of two harts that add 1 and 2 to the word at 16. -/
def addOne : Call := .sendAMORequest 0 16 16 4 (bytesOf 1#32) 0 0 AmoOp.add.flag

def addTwo : Call := .sendAMORequest 1 16 16 4 (bytesOf 2#32) 8 1 AmoOp.add.flag

def zeroed : Nat → Byte := fun _ => 0

/-- The answers to a request that the memory gives in the order sent. -/
def servesFrom (id : Nat) (data : Buffer) : (Nat → Byte) → List Request → Bool
  | _, [] => true
  | memory, request :: rest =>
    (request.id != id || request.op.op != .READ ||
      (List.range request.size).all fun index => data index == memory (request.addr + index)) &&
    servesFrom id data (serve memory request) rest

theorem serves_of {base : Nat → Byte} {run : Run} {id : Nat} {data : Buffer}
    (passed : servesFrom id data base run.ctrl.wire = true) : serves base run (.respond id data) := by
  intro earlier request later parts same reads index inside
  rw [parts] at passed
  clear parts
  induction earlier generalizing base with
  | nil =>
    simp only [List.nil_append, servesFrom, same, bne_self_eq_false, reads, Bool.false_or, Bool.and_eq_true,
      List.all_eq_true, List.mem_range, beq_iff_eq] at passed
    exact passed.1 index inside
  | cons first rest ih =>
    rw [List.cons_append, servesFrom, Bool.and_eq_true] at passed
    exact ih passed.2

/-- READs, WRITEs and AMOs, served in order. -/
def servedB (base : Nat → Byte) (run : Run) : Event → Bool
  | .send call => call.readsWrites
  | .respond id data => servesFrom id data base run.ctrl.wire
  | _ => true

theorem served_of {base : Nat → Byte} (run : Run) (event : Event) (passed : servedB base run event = true) :
    readsWrites run event ∧ serves base run event := by
  cases event with
  | send call => exact ⟨passed, trivial⟩
  | respond id data => exact ⟨trivial, serves_of passed⟩
  | begin => exact ⟨trivial, trivial⟩
  | next => exact ⟨trivial, trivial⟩

/-- One operation at a time, of a word in one request. -/
def oneByOne (config : Config) (base : Nat → Byte) (run : Run) (event : Event) : Bool :=
  servedB base run event && decide (run.ctrl.rqstQ.length ≤ 1) && (picks config run).all fun pick =>
    pick.1.isEmpty && pick.2.2.isEmpty && run.ctrl.outstanding.isEmpty &&
      decide (Covers config pick.2.1) && pick.2.1.size == 4 && (piecesOf config pick.2.1).length == 1

theorem oneByOne_of {config : Config} {base : Nat → Byte} (run : Run) (event : Event)
    (passed : oneByOne config base run event = true) : amoGood config base run event := by
  rw [oneByOne, Bool.and_eq_true, Bool.and_eq_true, decide_eq_true_eq] at passed
  obtain ⟨plain, serves⟩ := served_of run event passed.1.1
  refine ⟨plain, serves, ?_⟩
  cases event with
  | next =>
    intro tick front op back running taken sends
    have lone := passed.2
    simp only [picks_of_taken running taken, Option.all_some, Bool.and_eq_true, List.isEmpty_iff,
      decide_eq_true_eq, beq_iff_eq] at lone
    obtain ⟨⟨⟨⟨⟨rfl, rfl⟩, landed⟩, covers⟩, word⟩, single⟩ := lone
    have only : ∀ other, Live run.ctrl other → other = op := by
      rintro other (member | ⟨id, held⟩)
      · rw [taken.queue] at member
        simpa using member
      · rw [landed] at held
        cases held
    have underway : ∀ other, Underway run op other → other = op := by
      rintro other (⟨held, _⟩ | ⟨member, _⟩)
      · exact only other (.inr held)
      · exact only other (.inl member)
    refine ⟨covers, fun _ => ⟨word, single⟩, ?_, ?_, ?_, ?_⟩
    · rintro _ other (⟨held, _⟩ | ⟨member, _⟩) differ
      · exact absurd (congrArg RevMemOp.ptr (only other (.inr held))) differ
      · exact absurd (congrArg RevMemOp.ptr (only other (.inl member))) differ
    · intro _ other waits _
      rw [underway other waits]
      exact Nat.lt_irrefl _
    · intro other waits _ _
      rw [underway other waits]
      exact Nat.lt_irrefl _
    · rintro _ _ other (held | waits) _
      · rw [only other (.inr held)]
        exact Nat.lt_irrefl _
      · rw [underway other waits]
        exact Nat.lt_irrefl _
  | begin =>
    intro front earlier middle other back queue
    have short := passed.1.2
    rw [queue] at short
    simp only [List.length_append, List.length_cons] at short
    omega
  | send call => trivial
  | respond id data => trivial

theorem amo_serializable_two : ∃ run, Reached narrow (amoGood narrow zeroed) run ∧
    (run.ctrl.rqstQ.length, run.ctrl.outstanding.length, served zeroed run.ctrl.wire 16) = (0, 0, 3) ∧
      Serializable zeroed run := by
  have seen : (follow narrow (oneByOne narrow zeroed) ⟨Ctrl.new zeroed (fun _ => false), none, [], []⟩
      [.send addOne, .begin, .next, .next, .respond 0 zeroed, .begin, .next, .next, .respond 1 zeroed,
        .send addTwo, .begin, .next, .next, .respond 2 (bytesOf 1#32), .begin, .next, .next,
        .respond 3 zeroed]).map
        (fun run => (run.ctrl.rqstQ.length, run.ctrl.outstanding.length, served zeroed run.ctrl.wire 16)) =
      some (0, 0, 3) := by decide
  obtain ⟨run, reached, observed⟩ := follow_seen _ oneByOne_of seen
  have sizes := observed
  simp only [Prod.mk.injEq, List.length_eq_zero_iff] at sizes
  exact ⟨run, reached, observed, (amo_serializable reached).1 sizes.1 sizes.2.1⟩

/-- Both READs are answered before either WRITE is sent: the first update is lost. -/
theorem amo_update_lost : ∃ run,
    Reached narrow (fun run event => readsWrites run event ∧ serves zeroed run event) run ∧
      run.ctrl.rqstQ = [] ∧ run.ctrl.outstanding = [] ∧ ¬ Serializable zeroed run := by
  have seen : (follow narrow (servedB zeroed) ⟨Ctrl.new zeroed (fun _ => false), none, [], []⟩
      [.send addOne, .send addTwo, .begin, .next, .next, .begin, .next, .next, .respond 0 zeroed,
        .respond 1 zeroed, .begin, .next, .next, .begin, .next, .next, .respond 2 zeroed,
        .respond 3 zeroed]).map
        (fun run => (run.accepted.filter fun entry => entry.2.changes, run.ctrl.rqstQ.length,
          run.ctrl.outstanding.length, served zeroed run.ctrl.wire 16)) =
      some ([(0, addOne), (1, addTwo)], 0, 0, 2) := rfl
  obtain ⟨run, reached, observed⟩ := follow_seen _ served_of seen
  simp only [Prod.mk.injEq, List.length_eq_zero_iff] at observed
  obtain ⟨calls, queue, landed, memory⟩ := observed
  refine ⟨run, reached, queue, landed, ?_⟩
  rintro ⟨order, perm, _, same⟩
  rw [calls, List.perm_pair] at perm
  have value := congrFun same 16
  rw [memory] at value
  rcases perm with rfl | rfl
  · exact absurd value (by decide)
  · exact absurd value (by decide)

end Two
end RevCPU.MemCtrl
