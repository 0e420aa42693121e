import RevCPU.MemCtrlSound
/-!
Conservation of memory operations. `Traced` ties every operation to the call it was built for, or to
the READ of the AMO that enqueued it; with `Sound` it gives one place for each operation at any time
and one completion.
-/
namespace RevCPU.MemCtrl
open Mem MemRefine RegFile Atomic

section Origins
variable {config : Config} {run after : Run}

/-- An operation of a call, or the WRITE of one of the AMOs. Only `splitRqst` changes after the start. -/
def Origin (run : Run) (op : RevMemOp) : Prop :=
  (∃ call, (op.ptr, call) ∈ run.accepted ∧
    op = { call.op with ptr := op.ptr, splitRqst := op.splitRqst }) ∨
  ∃ read call, (read, op.ptr) ∈ run.writes ∧ (read, call) ∈ run.accepted ∧ call.isAMO = true ∧
    op = { amoWrite call.op op.ptr op.membuf with splitRqst := op.splitRqst }

def Live (ctrl : Ctrl) (op : RevMemOp) : Prop := op ∈ ctrl.rqstQ ∨ ∃ id, (id, op) ∈ ctrl.outstanding

theorem Sound.live_lt {ctrl : Ctrl} (sound : Sound ctrl) {op : RevMemOp} (alive : Live ctrl op) :
    op.ptr < ctrl.nextPtr := by
  rcases alive with waiting | ⟨id, flying⟩
  · exact sound.queued_lt waiting
  · exact (sound.held_lt flying).1

def tags (run : Run) : List Nat := run.accepted.map Prod.fst ++ run.writes.map Prod.snd

structure Traced (run : Run) : Prop where
  distinct : (tags run).Nodup
  tagged : ∀ ptr, ptr ∈ tags run ↔ ptr < run.ctrl.nextPtr
  once : (run.writes.map Prod.fst).Nodup
  ended : ∀ pair ∈ run.writes, pair.1 ∈ run.ctrl.deleted ∧
    ∃ call, (pair.1, call) ∈ run.accepted ∧ call.isAMO = true
  written : ∀ ptr call, (ptr, call) ∈ run.accepted → call.isAMO = true → ptr ∈ run.ctrl.deleted →
    ptr ∈ run.writes.map Prod.fst
  queue : ∀ op ∈ run.ctrl.rqstQ, Origin run op
  wire : ∀ request ∈ run.ctrl.wire, Origin run request.op
  tabled : ∀ op call, Live run.ctrl op → (op.ptr, call) ∈ run.accepted →
    ((op.addr, op.ptr) ∈ run.ctrl.amoTable ↔ call.isAMO = true)
  bounded : ∀ entry ∈ run.ctrl.amoTable, entry.2 < run.ctrl.nextPtr

theorem traced_new (host : Nat → Byte) (hazards : Nat → Bool) :
    Traced ⟨Ctrl.new host hazards, none, [], []⟩ := by
  constructor <;> simp [Ctrl.new, tags, Live]

theorem Origin.mono {op : RevMemOp} (origin : Origin run op)
    (accepted : ∀ entry ∈ run.accepted, entry ∈ after.accepted)
    (writes : ∀ pair ∈ run.writes, pair ∈ after.writes) : Origin after op := by
  rcases origin with ⟨call, member, shape⟩ | ⟨read, call, written, member, amo, shape⟩
  · exact .inl ⟨call, accepted _ member, shape⟩
  · exact .inr ⟨read, call, writes _ written, accepted _ member, amo, shape⟩

theorem Traced.accepted_lt (traced : Traced run) {ptr : Nat} {call : Call}
    (member : (ptr, call) ∈ run.accepted) : ptr < run.ctrl.nextPtr := by
  rw [← traced.tagged]
  exact List.mem_append_left _ (List.mem_map.mpr ⟨_, member, rfl⟩)

theorem Traced.call_unique (traced : Traced run) {ptr : Nat} {one other : Call}
    (first : (ptr, one) ∈ run.accepted) (second : (ptr, other) ∈ run.accepted) : one = other := by
  have distinct := (List.nodup_append.mp traced.distinct).1
  exact (Prod.mk.inj (List.inj_on_of_nodup_map distinct first second rfl)).2

theorem Traced.apart (traced : Traced run) {read ptr : Nat} {call : Call}
    (accepted : (ptr, call) ∈ run.accepted) (written : (read, ptr) ∈ run.writes) : False := by
  have apart := (List.nodup_append.mp traced.distinct).2.2 ptr (List.mem_map.mpr ⟨_, accepted, rfl⟩)
    ptr (List.mem_map.mpr ⟨_, written, rfl⟩)
  exact apart rfl

theorem Call.amo_op {call : Call} (amo : call.isAMO = true) : call.op.op = .READ := by
  cases call <;> first | rfl | cases amo

theorem own_iff {ctrl : Ctrl} {op : RevMemOp} :
    ctrl.amoTable.any (Ctrl.ownEntry op) = true ↔ (op.addr, op.ptr) ∈ ctrl.amoTable := by
  rw [List.any_eq_true]
  constructor
  · rintro ⟨⟨addr, ptr⟩, member, own⟩
    simp only [Ctrl.ownEntry, Bool.and_eq_true, beq_iff_eq] at own
    rw [← own.1, ← own.2]
    exact member
  · intro member
    exact ⟨_, member, by simp [Ctrl.ownEntry]⟩

theorem Call.entry_ptr {call : Call} {ptr : Nat} {entry : Nat × Nat} (member : entry ∈ call.entry ptr) :
    entry.2 = ptr := by
  rw [Call.entry] at member
  split at member
  · rw [List.mem_singleton.mp member]
  · cases member

-- The table of an accepted call: its own entry, if it is an AMO, and those of the calls before.
theorem Traced.tabled_called (traced : Traced run) (sound : Sound run.ctrl) (call : Call)
    (hazards : Nat → Bool) {op : RevMemOp} {other : Call} (live : Live (called run.ctrl call hazards) op)
    (member : (op.ptr, other) ∈ run.accepted ++ [(run.ctrl.nextPtr, call)]) :
    (op.addr, op.ptr) ∈ (called run.ctrl call hazards).amoTable ↔ other.isAMO = true := by
  have sides : (op.addr, op.ptr) ∈ (called run.ctrl call hazards).amoTable ↔
      (op.addr, op.ptr) ∈ run.ctrl.amoTable ∨ (op.addr, op.ptr) ∈ call.entry run.ctrl.nextPtr := by
    simp only [called, List.mem_append]
  rw [sides]
  rcases List.mem_append.mp member with old | new
  · have older := traced.accepted_lt old
    have still : Live run.ctrl op := by
      rcases live with queued | flying
      · rcases List.mem_append.mp queued with before | new
        · exact .inl before
        · rw [List.mem_singleton.mp new] at older
          exact absurd older (Nat.lt_irrefl _)
      · exact .inr flying
    rw [← traced.tabled op other still old]
    constructor
    · rintro (before | new)
      · exact before
      · exact absurd (Call.entry_ptr new) (Nat.ne_of_lt older)
    · exact .inl
  · rw [List.mem_singleton, Prod.mk.injEq] at new
    obtain ⟨ptr, rfl⟩ := new
    have built : op.addr = other.op.addr := by
      rcases live with queued | ⟨id, flying⟩
      · rcases List.mem_append.mp queued with before | new
        · exact absurd (sound.queued_lt before) (by omega)
        · rw [List.mem_singleton.mp new]
      · exact absurd (sound.held_lt flying).1 (by simp only; omega)
    constructor
    · rintro (before | new)
      · exact absurd (traced.bounded _ before) (by simp only; omega)
      · cases amo : other.isAMO with
        | true => rfl
        | false => simp [Call.entry, amo] at new
    · intro amo
      right
      rw [Call.entry, if_pos amo, ptr, built]
      exact List.mem_singleton.mpr rfl

theorem Traced.accept (traced : Traced run) (sound : Sound run.ctrl) (call : Call)
    (hazards : Nat → Bool) :
    Traced
      { run with
          ctrl := called run.ctrl call hazards
          accepted := run.accepted ++ [(run.ctrl.nextPtr, call)] } := by
  have kept : ∀ op, Origin run op → Origin
      { run with
          ctrl := called run.ctrl call hazards
          accepted := run.accepted ++ [(run.ctrl.nextPtr, call)] } op := by
    intro op origin
    exact origin.mono (fun entry member => List.mem_append_left _ member) fun pair member => member
  have fresh : run.ctrl.nextPtr ∉ tags run := by
    rw [traced.tagged]
    exact Nat.lt_irrefl _
  have shape : ∀ ptr, ptr ∈ tags
      { run with
          ctrl := called run.ctrl call hazards
          accepted := run.accepted ++ [(run.ctrl.nextPtr, call)] } ↔
      ptr ∈ tags run ∨ ptr = run.ctrl.nextPtr := by
    intro ptr
    simp only [tags, List.map_append, List.map_cons, List.map_nil, List.mem_append, List.mem_singleton]
    tauto
  constructor
  case distinct =>
    simp only [tags, List.map_append, List.map_cons, List.map_nil, List.append_assoc,
      List.singleton_append]
    exact (List.nodup_middle).mpr (List.nodup_cons.mpr ⟨fresh, traced.distinct⟩)
  case tagged =>
    intro ptr
    rw [shape, traced.tagged]
    simp only [called]
    omega
  case once => exact traced.once
  case ended =>
    intro pair member
    obtain ⟨dead, call, accepted, amo⟩ := traced.ended pair member
    exact ⟨dead, call, List.mem_append_left _ accepted, amo⟩
  case written =>
    intro ptr other member amo dead
    rcases List.mem_append.mp member with old | new
    · exact traced.written ptr other old amo dead
    · rw [List.mem_singleton, Prod.mk.injEq] at new
      have placed := sound.placed ptr
      rw [new.1, if_neg (Nat.lt_irrefl _), places] at placed
      have none : run.ctrl.deleted.count run.ctrl.nextPtr = 0 := by omega
      rw [new.1] at dead
      exact absurd dead (List.count_eq_zero.mp none)
  case queue =>
    intro op member
    rcases List.mem_append.mp member with old | new
    · exact kept op (traced.queue op old)
    · rw [List.mem_singleton.mp new]
      exact .inl ⟨call, List.mem_append_right _ (List.mem_singleton.mpr rfl), rfl⟩
  case wire => exact fun request member => kept _ (traced.wire request member)
  case tabled => exact fun op other live member => traced.tabled_called sound call hazards live member
  case bounded =>
    intro entry member
    simp only [called, List.mem_append] at member ⊢
    rcases member with old | new
    · exact Nat.lt_succ_of_lt (traced.bounded entry old)
    · rw [Call.entry_ptr new]
      exact Nat.lt_succ_self _

-- No operation is added and the table stays: the turns of a tick.
theorem Traced.turn (traced : Traced run) (ctrl : Ctrl) (tick : Option Tick)
    (nextPtr : ctrl.nextPtr = run.ctrl.nextPtr) (table : ctrl.amoTable = run.ctrl.amoTable)
    (grows : ∀ ptr ∈ run.ctrl.deleted, ptr ∈ ctrl.deleted)
    (dead : ∀ ptr ∈ ctrl.deleted, ptr ∈ run.ctrl.deleted ∨
      ∀ call, (ptr, call) ∈ run.accepted → call.isAMO = false)
    (queue : ∀ op ∈ ctrl.rqstQ, op ∈ run.ctrl.rqstQ)
    (wire : ∀ request ∈ ctrl.wire, Origin run request.op)
    (live : ∀ op, Live ctrl op → ∃ old, Live run.ctrl old ∧ old.ptr = op.ptr ∧ old.addr = op.addr) :
    Traced { run with ctrl := ctrl, tick := tick } where
  distinct := traced.distinct
  tagged := by
    intro ptr
    rw [nextPtr]
    exact traced.tagged ptr
  once := traced.once
  ended := by
    intro pair member
    obtain ⟨ended, call, accepted, amo⟩ := traced.ended pair member
    exact ⟨grows _ ended, call, accepted, amo⟩
  written := by
    intro ptr call member amo ended
    rcases dead ptr ended with before | plain
    · exact traced.written ptr call member amo before
    · rw [plain call member] at amo
      cases amo
  queue := fun op member => traced.queue op (queue op member)
  wire := wire
  tabled := by
    intro op call alive member
    obtain ⟨old, still, ptr, addr⟩ := live op alive
    rw [← ptr] at member ⊢
    rw [table, ← addr]
    exact traced.tabled old call still member
  bounded := by
    rw [table, nextPtr]
    exact traced.bounded

theorem Origin.split {op : RevMemOp} (origin : Origin run op) : Origin run (split config op) := by
  rcases origin with ⟨call, member, shape⟩ | ⟨read, call, written, member, amo, shape⟩
  · exact .inl ⟨call, member,
      congrArg (fun other => { other with splitRqst := (piecesOf config op).length }) shape⟩
  · exact .inr ⟨read, call, written, member, amo,
      congrArg (fun other => { other with splitRqst := (piecesOf config op).length }) shape⟩

theorem Traced.sentOff (traced : Traced run) {front back : List RevMemOp} {op : RevMemOp}
    (queue : run.ctrl.rqstQ = front ++ op :: back) (lane : Lane) (tick : Option Tick) :
    Traced { run with ctrl := sentOff config run.ctrl front op back lane, tick := tick } := by
  have member : op ∈ run.ctrl.rqstQ := by simp [queue]
  apply traced.turn (MemCtrl.sentOff config run.ctrl front op back lane) tick rfl rfl
  · exact fun ptr dead => dead
  · exact fun ptr dead => .inl dead
  · exact fun other still => (sublist_taken queue).subset still
  · intro request sent
    rcases List.mem_append.mp sent with old | new
    · exact traced.wire request old
    · rw [(wireOf_mem new).1]
      exact (traced.queue op member).split
  · rintro other (queued | ⟨id, flying⟩)
    · exact ⟨other, .inl ((sublist_taken queue).subset queued), rfl, rfl⟩
    · rcases mem_sentOff.mp flying with old | ⟨new, _⟩
      · exact ⟨other, .inr ⟨id, old⟩, rfl, rfl⟩
      · refine ⟨op, .inl member, ?_, ?_⟩
        · rw [show other = MemCtrl.split config op from new]
          rfl
        · rw [show other = MemCtrl.split config op from new]
          rfl

theorem Traced.fenced (traced : Traced run) {front back : List RevMemOp} {op : RevMemOp}
    (queue : run.ctrl.rqstQ = front ++ op :: back) (kind : op.op = .FENCE) :
    Traced { run with ctrl := fenced run.ctrl front op back, tick := none } := by
  have member : op ∈ run.ctrl.rqstQ := by simp [queue]
  apply traced.turn (MemCtrl.fenced run.ctrl front op back) none rfl rfl
  · exact fun ptr dead => List.mem_append_left _ dead
  · intro ptr dead
    rcases List.mem_append.mp dead with old | new
    · exact .inl old
    · right
      intro call accepted
      rw [List.mem_singleton.mp new] at accepted
      rcases traced.queue op member with ⟨other, known, shape⟩ | ⟨read, other, _, _, _, shape⟩
      · rw [traced.call_unique accepted known]
        cases amo : other.isAMO with
        | false => rfl
        | true =>
          rw [shape] at kind
          exact absurd (kind.symm.trans (Call.amo_op amo)) (by decide)
      · rw [shape] at kind
        cases kind
  · exact fun other still => (sublist_taken queue).subset still
  · exact traced.wire
  · rintro other (queued | flying)
    · exact ⟨other, .inl ((sublist_taken queue).subset queued), rfl, rfl⟩
    · exact ⟨other, .inr flying, rfl, rfl⟩

section Answers
variable {id : Nat} {data : Buffer} {op : RevMemOp} {created : List RevMemOp} {ctrl : Ctrl}

theorem Traced.held_origin (traced : Traced run) (sound : Sound run.ctrl)
    (held : (id, op) ∈ run.ctrl.outstanding) : Origin run op := by
  obtain ⟨request, found, same⟩ := sound.wired _ held
  rw [← show request.op = op from same]
  exact traced.wire request (List.mem_of_find?_eq_some found)

-- The table recognises the READ of an AMO and no other.
theorem Traced.closes_iff (traced : Traced run) (sound : Sound run.ctrl)
    (held : (id, op) ∈ run.ctrl.outstanding) :
    closesAMO run.ctrl op = true ↔ run.ctrl.isLast op = true ∧
      ∃ call, (op.ptr, call) ∈ run.accepted ∧ call.isAMO = true := by
  simp only [closesAMO, Bool.and_eq_true, beq_iff_eq, own_iff]
  constructor
  · rintro ⟨⟨last, reads⟩, own⟩
    rcases traced.held_origin sound held with ⟨call, member, shape⟩ | ⟨read, call, _, _, _, shape⟩
    · exact ⟨last, call, member, (traced.tabled op call (.inr ⟨id, held⟩) member).mp own⟩
    · rw [shape] at reads
      cases reads
  · rintro ⟨last, call, member, amo⟩
    have own := (traced.tabled op call (.inr ⟨id, held⟩) member).mpr amo
    rcases traced.held_origin sound held with ⟨other, known, shape⟩ | ⟨read, other, known, _, _, _⟩
    · refine ⟨⟨last, ?_⟩, own⟩
      have kind : op.op = .READ := by
        rw [shape, ← traced.call_unique member known]
        exact Call.amo_op amo
      rw [kind]
      rfl
    · exact (traced.apart member known).elim

theorem Sound.settle_apart (sound : Sound run.ctrl) (held : (id, op) ∈ run.ctrl.outstanding)
    (last : run.ctrl.isLast op = true) {entry : Nat × RevMemOp} (member : entry ∈ run.ctrl.outstanding)
    (other : entry.1 ≠ id) : entry.2.ptr ≠ op.ptr := by
  intro mine
  have one := (sound.isLast_iff held).mp last
  have count := sound.count_settle held op.ptr
  rw [Ctrl.getNumSplitRqsts] at one
  rw [if_pos rfl] at count
  have positive : 0 < ((run.ctrl.outstanding.filter fun entry => entry.1 != id).countP
      fun entry => entry.2.ptr == op.ptr) :=
    List.countP_pos_iff.mpr ⟨entry, List.mem_filter.mpr ⟨member, by simpa using other⟩, by simpa using mine⟩
  omega

theorem Traced.quiet (traced : Traced run) (sound : Sound run.ctrl)
    (held : (id, op) ∈ run.ctrl.outstanding) (open' : closesAMO run.ctrl op = false)
    (answered : Answered config run.ctrl id data op [] ctrl) : Traced { run with ctrl := ctrl } := by
  have table := (answered.quiet open').2
  have rqstQ : ctrl.rqstQ = run.ctrl.rqstQ := by simpa using answered.rqstQ
  have live : ∀ other, Live ctrl other → Live run.ctrl other := by
    rintro other (queued | ⟨key, flying⟩)
    · rw [rqstQ] at queued
      exact .inl queued
    · rw [answered.outstanding] at flying
      exact .inr ⟨key, List.mem_of_mem_filter flying⟩
  have dead : ∀ ptr ∈ ctrl.deleted, ptr ∈ run.ctrl.deleted ∨
      run.ctrl.isLast op = true ∧ ptr = op.ptr := by
    intro ptr member
    rw [answered.deleted, List.mem_append] at member
    rcases member with old | new
    · exact .inl old
    · split at new
      · rename_i last
        exact .inr ⟨last, List.mem_singleton.mp new⟩
      · cases new
  constructor
  case distinct => exact traced.distinct
  case tagged =>
    intro ptr
    rw [show ctrl.nextPtr = run.ctrl.nextPtr from answered.nextPtr]
    exact traced.tagged ptr
  case once => exact traced.once
  case ended =>
    intro pair member
    obtain ⟨ended, call, accepted, amo⟩ := traced.ended pair member
    refine ⟨?_, call, accepted, amo⟩
    rw [answered.deleted]
    exact List.mem_append_left _ ended
  case written =>
    intro ptr call member amo ended
    rcases dead ptr ended with before | ⟨last, rfl⟩
    · exact traced.written ptr call member amo before
    · rw [(traced.closes_iff sound held).mpr ⟨last, call, member, amo⟩] at open'
      cases open'
  case queue =>
    rw [rqstQ]
    exact traced.queue
  case wire =>
    rw [answered.wire]
    exact traced.wire
  case tabled =>
    intro other call alive member
    rw [← traced.tabled other call (live other alive) member]
    rcases table with same | ⟨writes, filtered⟩
    · rw [same]
    · rw [filtered, List.mem_filter]
      constructor
      · exact And.left
      · intro listed
        refine ⟨listed, ?_⟩
        rw [Bool.not_eq_true', Ctrl.ownEntry, Bool.and_eq_false_iff]
        right
        rw [beq_eq_false_iff_ne]
        intro mine
        have amo := (traced.tabled other call (live other alive) member).mp listed
        rw [show other.ptr = op.ptr from mine] at member
        rcases traced.held_origin sound held with ⟨known, accepted, shape⟩ | ⟨read, known, written, _⟩
        · rw [shape, traced.call_unique accepted member,
            show call.op.op = .READ from Call.amo_op amo] at writes
          cases writes
        · exact traced.apart member written
  case bounded =>
    rw [show ctrl.nextPtr = run.ctrl.nextPtr from answered.nextPtr]
    rcases table with same | ⟨_, filtered⟩
    · rw [same]
      exact traced.bounded
    · rw [filtered]
      exact fun entry member => traced.bounded entry (List.mem_of_mem_filter member)

theorem Traced.modifies (traced : Traced run) (sound : Sound run.ctrl)
    (held : (id, op) ∈ run.ctrl.outstanding) (closes : closesAMO run.ctrl op = true)
    (answered : Answered config run.ctrl id data op created ctrl) :
    Traced
      { run with
          ctrl := ctrl
          writes := run.writes ++ created.map fun write => (op.ptr, write.ptr) } := by
  obtain ⟨table, target, host, aimed, rfl, _⟩ := answered.modifies closes
  obtain ⟨last, call, accepted, amo⟩ := (traced.closes_iff sound held).mp closes
  have nextPtr : ctrl.nextPtr = run.ctrl.nextPtr + 1 := answered.nextPtr
  have deleted : ctrl.deleted = run.ctrl.deleted ++ [op.ptr] := by
    rw [answered.deleted, if_pos last]
  have alive : op.ptr ∉ run.ctrl.deleted := List.count_eq_zero.mp (sound.held_lt held).2.2
  have fresh : run.ctrl.nextPtr ∉ tags run := by
    rw [traced.tagged]
    exact Nat.lt_irrefl _
  have kept : ∀ other, Origin run other → Origin
      { run with ctrl := ctrl, writes := run.writes ++ [(op.ptr, run.ctrl.nextPtr)] } other := by
    intro other origin
    exact origin.mono (fun entry member => member) fun pair member => List.mem_append_left _ member
  change Traced { run with ctrl := ctrl, writes := run.writes ++ [(op.ptr, run.ctrl.nextPtr)] }
  constructor
  case distinct =>
    simp only [tags, List.map_append, List.map_cons, List.map_nil]
    rw [← List.append_assoc, List.nodup_append]
    refine ⟨traced.distinct, List.nodup_singleton _, ?_⟩
    rintro ptr member _ new rfl
    rw [List.mem_singleton.mp new] at member
    exact fresh member
  case tagged =>
    intro ptr
    have before := traced.tagged ptr
    simp only [tags, List.mem_append, List.map_append, List.map_cons, List.map_nil,
      List.mem_singleton] at before ⊢
    rw [nextPtr, ← or_assoc, before]
    omega
  case once =>
    simp only [List.map_append, List.map_cons, List.map_nil]
    rw [List.nodup_append]
    refine ⟨traced.once, List.nodup_singleton _, ?_⟩
    rintro ptr member _ new rfl
    rw [List.mem_singleton.mp new] at member
    obtain ⟨pair, written, same⟩ := List.mem_map.mp member
    rw [← same] at alive
    exact alive (traced.ended pair written).1
  case ended =>
    intro pair member
    rw [deleted]
    rcases List.mem_append.mp member with old | new
    · obtain ⟨ended, call, accepted, amo⟩ := traced.ended pair old
      exact ⟨List.mem_append_left _ ended, call, accepted, amo⟩
    · rw [List.mem_singleton.mp new]
      exact ⟨List.mem_append_right _ (List.mem_singleton.mpr rfl), call, accepted, amo⟩
  case written =>
    intro ptr other member isAmo ended
    rw [deleted] at ended
    simp only [List.map_append, List.mem_append, List.map_cons, List.map_nil] at ended ⊢
    rcases ended with old | new
    · exact .inl (traced.written ptr other member isAmo old)
    · exact .inr new
  case queue =>
    intro other member
    rw [answered.rqstQ] at member
    rcases List.mem_append.mp member with old | new
    · exact kept other (traced.queue other old)
    · rw [List.mem_singleton.mp new]
      refine .inr ⟨op.ptr, call, List.mem_append_right _ (List.mem_singleton.mpr rfl), accepted, amo, ?_⟩
      rcases traced.held_origin sound held with ⟨known, listed, shape⟩ | ⟨read, known, written, _⟩
      · rw [traced.call_unique listed accepted] at shape
        rw [shape]
        rfl
      · exact (traced.apart accepted written).elim
  case wire =>
    rw [answered.wire]
    exact fun request member => kept _ (traced.wire request member)
  case tabled =>
    intro other known alive member
    have older := traced.accepted_lt member
    have live : Live run.ctrl other ∧ other.ptr ≠ op.ptr := by
      rcases alive with queued | ⟨key, flying⟩
      · rw [answered.rqstQ] at queued
        rcases List.mem_append.mp queued with before | new
        · refine ⟨.inl before, ?_⟩
          intro mine
          have unqueued := (sound.held_lt held).2.1
          exact List.countP_eq_zero.mp unqueued other before (by simpa using mine)
        · rw [List.mem_singleton.mp new] at older
          exact absurd older (Nat.lt_irrefl _)
      · rw [answered.outstanding, List.mem_filter] at flying
        exact ⟨.inr ⟨key, flying.1⟩,
          sound.settle_apart held last flying.1 (by simpa using flying.2)⟩
    rw [← traced.tabled other known live.1 member, table, amoEntries]
    rw [List.mem_eraseP_of_neg]
    · rw [List.mem_append]
      constructor
      · rintro (before | new)
        · exact before
        · rw [(Prod.mk.inj (List.mem_singleton.mp new)).2] at older
          exact absurd older (Nat.lt_irrefl _)
      · exact .inl
    · simp [Ctrl.ownEntry, live.2]
  case bounded =>
    intro entry member
    rw [table, amoEntries] at member
    rw [nextPtr]
    rcases List.mem_append.mp (List.mem_of_mem_eraseP member) with old | new
    · exact Nat.lt_succ_of_lt (traced.bounded entry old)
    · rw [List.mem_singleton.mp new]
      exact Nat.lt_succ_self _

end Answers

theorem Move.traced {event : Event} (traced : Traced run) (sound : Sound run.ctrl)
    (move : Move config run event after) : Traced after := by
  cases move with
  | refuse call refused => exact traced
  | accept call accepts hazards => exact traced.accept sound call hazards
  | answer id data op created ctrl held answered =>
    cases closes : closesAMO run.ctrl op with
    | false =>
      obtain ⟨rfl, _⟩ := answered.quiet closes
      simpa using traced.quiet sound held closes answered
    | true => exact traced.modifies sound held closes answered
  | start fences tick opening =>
    exact traced.turn { run.ctrl with numFence := fences } tick rfl rfl (fun ptr dead => dead)
      (fun ptr dead => .inl dead) (fun op member => member) traced.wire
      fun op live => ⟨op, live, rfl, rfl⟩
  | idle tick =>
    exact traced.turn run.ctrl tick rfl rfl (fun ptr dead => dead) (fun ptr dead => .inl dead)
      (fun op member => member) traced.wire fun op live => ⟨op, live, rfl, rfl⟩
  | fence tick front op back running taken kind => exact traced.fenced taken.queue kind
  | dispatch tick front op back lane next running taken isLane sends =>
    exact traced.sentOff taken.queue lane next

theorem reached_traced {good : Run → Event → Prop} (reached : Reached config good run) : Traced run := by
  induction reached with
  | start host hazards => exact traced_new host hazards
  | step before event legal meets stepped ih =>
    have sound := reached_sound before
    exact (step_move sound legal stepped).traced ih sound

end Origins

section Conservation
variable {config : Config} {run : Run}

def Call.readsWrites : Call → Bool
  | sendREADRequest .. | sendWRITERequest .. | sendAMORequest .. => true
  | _ => false

def readsWrites (_ : Run) : Event → Prop
  | .send call => call.readsWrites = true
  | _ => True

inductive Stage where
  | queued | inFlight | completed
deriving Repr, DecidableEq

def Stage.Holds (ctrl : Ctrl) (ptr : Nat) : Stage → Prop
  | queued => (ctrl.rqstQ.countP fun op => op.ptr == ptr) = 1 ∧ ∀ entry ∈ ctrl.outstanding, entry.2.ptr ≠ ptr
  | inFlight => (∀ op ∈ ctrl.rqstQ, op.ptr ≠ ptr) ∧ ∃ entry ∈ ctrl.outstanding, entry.2.ptr = ptr
  | completed => ctrl.deleted.count ptr = 1

/-- The operation an event completes: the one whose only outstanding request is answered. -/
def completions (ctrl : Ctrl) : Event → List Nat
  | .respond id _ =>
    match ctrl.find id with
    | none => []
    | some op => if ctrl.getNumSplitRqsts op = 1 then [op.ptr] else []
  | _ => []

def isAMORead (run : Run) (op : RevMemOp) : Prop :=
  ∃ call, (op.ptr, call) ∈ run.accepted ∧ call.isAMO = true

structure Conserved (config : Config) (run : Run) : Prop where
  nodup : run.ctrl.requests.Nodup
  keys : run.ctrl.requests = run.ctrl.outstanding.map Prod.fst
  staged : ∀ ptr ∈ tags run, ∃! stage : Stage, stage.Holds run.ctrl ptr
  completes : ∀ event after, Legal run event → readsWrites run event →
    run.step config event = .ok after →
    after.ctrl.deleted = run.ctrl.deleted ++ completions run.ctrl event
  answers : ∀ id op data, run.tick = none → (id, op) ∈ run.ctrl.outstanding →
    ∃ after created, run.step config (.respond id data) = .ok after ∧
      after.ctrl.rqstQ = run.ctrl.rqstQ ++ created ∧
      (run.ctrl.getNumSplitRqsts op = 1 ∧ isAMORead run op → ∃ write, created = [write] ∧
        write.op = .WRITE ∧ write.hart = op.hart ∧ write.addr = op.addr ∧ write.size = op.size) ∧
      (¬ (run.ctrl.getNumSplitRqsts op = 1 ∧ isAMORead run op) → created = [])

theorem stage_unique (sound : Sound run.ctrl) {ptr : Nat} (old : ptr < run.ctrl.nextPtr) :
    ∃! stage : Stage, stage.Holds run.ctrl ptr := by
  have placed := sound.placed ptr
  rw [if_pos old, places, inFlight_eq] at placed
  have unqueued : (∀ op ∈ run.ctrl.rqstQ, op.ptr ≠ ptr) ↔ queued run.ctrl ptr = 0 := by
    simp [queued, List.countP_eq_zero]
  have grounded : (∀ entry ∈ run.ctrl.outstanding, entry.2.ptr ≠ ptr) ↔
      (run.ctrl.outstanding.countP fun entry => entry.2.ptr == ptr) = 0 := by
    simp [List.countP_eq_zero]
  have flying : (∃ entry ∈ run.ctrl.outstanding, entry.2.ptr = ptr) ↔
      0 < (run.ctrl.outstanding.countP fun entry => entry.2.ptr == ptr) := by
    simp [List.countP_pos_iff]
  have waiting : (run.ctrl.rqstQ.countP fun op => op.ptr == ptr) = queued run.ctrl ptr := rfl
  by_cases sent : 0 < (run.ctrl.outstanding.countP fun entry => entry.2.ptr == ptr)
  · rw [decide_eq_true sent, Bool.toNat_true] at placed
    refine ⟨.inFlight, ⟨unqueued.mpr (by omega), flying.mpr sent⟩, ?_⟩
    rintro (_ | _ | _) holds
    · exact absurd holds.1 (by omega)
    · rfl
    · exact absurd (show run.ctrl.deleted.count ptr = 1 from holds) (by omega)
  · rw [decide_eq_false sent, Bool.toNat_false] at placed
    by_cases dead : run.ctrl.deleted.count ptr = 1
    · refine ⟨.completed, dead, ?_⟩
      rintro (_ | _ | _) holds
      · exact absurd holds.1 (by omega)
      · exact absurd (flying.mp holds.2) sent
      · rfl
    · refine ⟨.queued, ⟨by omega, grounded.mpr (by omega)⟩, ?_⟩
      rintro (_ | _ | _) holds
      · rfl
      · exact absurd (flying.mp holds.2) sent
      · exact absurd holds dead

theorem accepted_of_step {after : Run} {event : Event} (move : Move config run event after)
    {entry : Nat × Call} (member : entry ∈ after.accepted) :
    entry ∈ run.accepted ∨ event = .send entry.2 := by
  cases move with
  | accept call accepts hazards =>
    rcases List.mem_append.mp member with old | new
    · exact .inl old
    · rw [List.mem_singleton.mp new]
      exact .inr rfl
  | refuse | answer | start | idle | fence | dispatch => exact .inl member

theorem reached_readsWrites (reached : Reached config readsWrites run) :
    ∀ entry ∈ run.accepted, entry.2.readsWrites = true := by
  induction reached with
  | start host hazards => simp
  | step before event legal meets stepped ih =>
    intro entry member
    rcases accepted_of_step (step_move (reached_sound before) legal stepped) member with old | rfl
    · exact ih entry old
    · exact meets

-- In such a run an operation is a READ with its pointers, or a WRITE.
theorem Origin.readsWrites {op : RevMemOp} (origin : Origin run op)
    (plain : ∀ entry ∈ run.accepted, entry.2.readsWrites = true) :
    (op.op = .READ ∧ ∃ target hazard, op.target = some target ∧ op.hazard = some hazard) ∨
      op.op = .WRITE := by
  rcases origin with ⟨call, member, shape⟩ | ⟨read, call, _, _, _, shape⟩
  · have kind := plain _ member
    rw [shape]
    cases call <;> first | exact .inr rfl | exact .inl ⟨rfl, _, _, rfl, rfl⟩ | cases kind
  · rw [shape]
    exact .inr rfl

theorem Origin.not_fence {op : RevMemOp} (origin : Origin run op)
    (plain : ∀ entry ∈ run.accepted, entry.2.readsWrites = true) : op.op ≠ .FENCE := by
  intro kind
  rcases origin.readsWrites plain with ⟨reads, _⟩ | writes
  · rw [reads] at kind
    cases kind
  · rw [writes] at kind
    cases kind

theorem answer_total (config : Config) (sound : Sound run.ctrl) (traced : Traced run)
    (plain : ∀ entry ∈ run.accepted, entry.2.readsWrites = true) {id : Nat} {op : RevMemOp}
    (data : Buffer) (held : (id, op) ∈ run.ctrl.outstanding) :
    ∃ after, run.step config (.respond id data) = .ok after := by
  have origin := traced.held_origin sound held
  obtain ⟨request, sent, same⟩ := sound.wired _ held
  have real : op.op ≠ .FENCE := sound.real _ held
  have total : ∃ after, run.ctrl.respond config id data = .ok after := by
    apply respond_total data (sound.known held) (sound.find held) sent same real
    intro reads
    rcases origin.readsWrites plain with ⟨_, pointers⟩ | writes
    · exact pointers
    · rw [writes] at reads
      cases reads
  obtain ⟨after, responded⟩ := total
  simp only [Run.step, responded]
  exact ⟨_, rfl⟩

theorem completes_step (sound : Sound run.ctrl) (traced : Traced run)
    (plain : ∀ entry ∈ run.accepted, entry.2.readsWrites = true) {event : Event} {after : Run}
    (move : Move config run event after) :
    after.ctrl.deleted = run.ctrl.deleted ++ completions run.ctrl event := by
  cases move with
  | answer id data op created ctrl held answered =>
    simp only [completions, sound.find held, answered.deleted]
    congr 1
    by_cases last : run.ctrl.isLast op = true
    · rw [if_pos last, if_pos ((sound.isLast_iff held).mp last)]
    · rw [if_neg last, if_neg fun one => last ((sound.isLast_iff held).mpr one)]
  | fence tick front op back running taken kind =>
    have member : op ∈ run.ctrl.rqstQ := by simp [taken.queue]
    exact absurd kind ((traced.queue op member).not_fence plain)
  | refuse | accept | start | idle | dispatch =>
    simp [completions, called, sentOff, dispatched]

/-- Operations are conserved in every run of READs, WRITEs and AMOs. -/
theorem operations_conserved (reached : Reached config readsWrites run) : Conserved config run := by
  have sound := reached_sound reached
  have traced := reached_traced reached
  have plain := reached_readsWrites reached
  constructor
  case nodup => exact sound.nodup
  case keys => exact sound.keys
  case staged => exact fun ptr known => stage_unique sound ((traced.tagged ptr).mp known)
  case completes =>
    intro event after legal allowed stepped
    exact completes_step sound traced plain (step_move sound legal stepped)
  case answers =>
    intro id op data quiet held
    obtain ⟨after, stepped⟩ := answer_total config sound traced plain data held
    have legal : Legal run (.respond id data) := ⟨quiet, sound.known held⟩
    have closes := traced.closes_iff sound held
    rw [sound.isLast_iff held] at closes
    cases step_move sound legal stepped with
    | answer id data other created ctrl held' answered =>
      have same : other = op := by
        have found := sound.find held
        rw [sound.find held'] at found
        exact Option.some.inj found
      subst same
      refine ⟨_, created, stepped, answered.rqstQ, ?_, ?_⟩
      · intro ending
        obtain ⟨_, target, host, _, rfl, _⟩ := answered.modifies (closes.mpr ending)
        exact ⟨_, rfl, rfl, rfl, rfl, rfl⟩
      · intro more
        cases ends : closesAMO run.ctrl other with
        | false => exact (answered.quiet ends).1
        | true => exact absurd (closes.mp ends) more

end Conservation

/-- One AMO of hart 0 on the word at 16. -/
def oneAMO : Call := .sendAMORequest 0 16 16 4 (fun _ => 1) 0 0 AmoOp.add.flag

def readsWritesB (_ : Run) : Event → Bool
  | .send call => call.readsWrites
  | _ => true

theorem readsWrites_of (run : Run) (event : Event) (passed : readsWritesB run event = true) :
    readsWrites run event := by
  cases event with
  | send call => exact passed
  | respond id data => trivial
  | begin => trivial
  | next => trivial

theorem operations_conserved_one : ∃ run, Reached narrow readsWrites run ∧
    (run.ctrl.deleted, run.ctrl.rqstQ.length, run.ctrl.requests) = ([0], 1, []) ∧
      Conserved narrow run := by
  have seen : (follow narrow readsWritesB ⟨Ctrl.new (fun _ => 0) (fun _ => false), none, [], []⟩
      [.send oneAMO, .begin, .next, .next, .respond 0 fun _ => 5]).map
        (fun run => (run.ctrl.deleted, run.ctrl.rqstQ.length, run.ctrl.requests)) =
      some ([0], 1, []) := by decide
  obtain ⟨run, reached, observed⟩ := follow_seen _ readsWrites_of seen
  exact ⟨run, reached, observed, operations_conserved reached⟩

end RevCPU.MemCtrl
