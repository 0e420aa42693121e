import RevCPU.MemCtrlHost
/-!
A read that crosses a cache line. Its two responses come in any order and among those to other
operations; each is put behind the target by the distance of its address, and the last one is found
by counting what is still outstanding for the operation. All of this is about one operation: nothing
counts the operations that share a hazard cell.
-/
namespace RevCPU.MemCtrl
open Mem MemRefine RegFile Atomic Arcs

structure ReadCall where
  hart : Nat
  addr : Nat
  pAddr : Nat
  size : Nat
  target : Nat
  hazard : Nat
  flags : BitVec 32

namespace ReadCall

def call (read : ReadCall) : Call :=
  .sendREADRequest read.hart read.addr read.pAddr read.size read.target read.hazard read.flags

def op (read : ReadCall) (ptr : Nat) : RevMemOp := { read.call.op with ptr := ptr }

/-- Shorter than a line, across a line boundary, through the cache, and without extension. -/
structure Crossing (read : ReadCall) (config : Config) : Prop where
  lines : 2 ≤ config.lineSize ∧ config.lineSize ≤ 256
  short : read.size < config.lineSize
  crosses : config.lineSize - read.addr % config.lineSize < read.size
  cacheable : read.flags &&& 0b10 = 0
  plain : has read.flags F_SEXT32 = false ∧ has read.flags F_SEXT64 = false ∧
    has read.flags F_ZEXT32 = false ∧ has read.flags F_ZEXT64 = false
  inside : read.addr < 2 ^ 64

/-- A response to the operation carries the memory's bytes. -/
def Carries (ptr : Nat) (memory : Nat → Byte) (run : Run) : Event → Prop
  | .respond id data => ∀ op, (id, op) ∈ run.ctrl.outstanding → op.ptr = ptr →
    ∀ request ∈ run.ctrl.wire, request.id = id →
      ∀ index < request.size, data index = memory ((request.addr + index) % 2 ^ 64)
  | _ => True

/-- A response to another operation that comes before the read is complete neither carries its hazard
nor reaches its target. -/
def Spared (read : ReadCall) (ptr : Nat) (run : Run) : Event → Prop
  | .respond id _ => ∀ op, (id, op) ∈ run.ctrl.outstanding → op.ptr ≠ ptr → ptr ∉ run.ctrl.deleted →
    op.hazard ≠ some read.hazard ∧
      ∀ cell, read.target ≤ cell → cell < read.target + read.size → ¬ Reaches op cell
  | _ => True

/-- The runs on from a state in which no response disturbs the read. -/
def Goes (read : ReadCall) (config : Config) (ptr : Nat) (memory : Nat → Byte) : Run → Run → Prop :=
  Relation.ReflTransGen fun run after => ∃ event, Legal run event ∧
    (Carries ptr memory run event ∧ read.Spared ptr run event) ∧ run.step config event = .ok after

/-- Where the code puts a response behind the target. -/
def offset (read : ReadCall) (request : Request) : Nat :=
  (request.addr + 2 ^ 64 - read.addr) % 2 ^ 8

end ReadCall

section Crossing
variable {config : Config} {read : ReadCall} (crossing : read.Crossing config)
include crossing

theorem crossing_cached (ptr : Nat) :
    hasCache config = true ∧ (read.op ptr).isCacheable = true := by
  have lines := crossing.lines.1
  constructor
  · exact decide_eq_true (by omega)
  · have cacheable := crossing.cacheable
    simpa [RevMemOp.isCacheable, ReadCall.op, ReadCall.call, Call.op, Ctrl.newOp] using cacheable

theorem crossing_lines : getNumCacheLines config read.addr read.size = 2 := by
  have lines := crossing.lines.1
  have short := crossing.short
  have crosses := crossing.crosses
  have known : ¬ hasCache config = false := by simp [(crossing_cached crossing 0).1]
  have offset : read.addr % config.lineSize < config.lineSize := Nat.mod_lt _ (by omega)
  unfold getNumCacheLines
  rw [if_neg known, if_pos (by omega), if_neg (by omega), if_pos short]

theorem crossing_pieces (ptr : Nat) : ∃ first, first ≤ read.size ∧
    piecesOf config (read.op ptr) =
      [(read.addr, first), ((read.addr + first) % 2 ^ 64, read.size - first)] := by
  have positive : 0 < config.lineSize := by
    have lines := crossing.lines.1
    omega
  have short := crossing.short
  refine ⟨firstSize config read.addr read.size, firstSize_le positive, ?_⟩
  rw [piecesOf, if_pos (crossing_cached crossing ptr)]
  change cachePieces config read.addr read.size = _
  rw [cachePieces_eq, crossing_lines crossing]
  simp only [Nat.add_one_sub_one, tailPieces]
  rw [if_pos (by omega)]

structure Halves (read : ReadCall) (first id : Nat) (one two : Request) : Prop where
  ids : one.id = id ∧ two.id = id + 1
  addrs : one.addr = read.addr ∧ two.addr = (read.addr + first) % 2 ^ 64
  sizes : one.size = first ∧ two.size = read.size - first
  offsets : read.offset one = 0 ∧ read.offset two = first

theorem crossing_halves (ptr id : Nat) (flags : BitVec 32) : ∃ first one two, first ≤ read.size ∧
    wireOf (split config (read.op ptr)) flags id 0 (piecesOf config (read.op ptr)) = [one, two] ∧
    Halves read first id one two := by
  obtain ⟨first, within, pieces⟩ := crossing_pieces crossing ptr
  have lines := crossing.lines.2
  have short := crossing.short
  have inside := crossing.inside
  rw [pieces]
  refine ⟨first, _, _, within, rfl, ⟨rfl, rfl⟩, ⟨rfl, rfl⟩, ⟨rfl, rfl⟩, ?_, ?_⟩
  · simp only [ReadCall.offset]
    omega
  · simp only [ReadCall.offset]
    omega

end Crossing

section Reading
variable {config : Config} {read : ReadCall} {ptr : Nat} {memory : Nat → Byte}

def requestsOf (ctrl : Ctrl) (ptr : Nat) : List Request :=
  ctrl.wire.filter fun request => request.op.ptr == ptr

theorem mem_requestsOf {ctrl : Ctrl} {request : Request} :
    request ∈ requestsOf ctrl ptr ↔ request ∈ ctrl.wire ∧ request.op.ptr = ptr := by
  rw [requestsOf, List.mem_filter, beq_iff_eq]

/-- What holds of the read from its call on. -/
structure Reading (config : Config) (read : ReadCall) (ptr : Nat) (memory : Nat → Byte) (ctrl : Ctrl) :
    Prop where
  sound : Sound ctrl
  made : ptr < ctrl.nextPtr
  alone : ∀ entry ∈ ctrl.amoTable, entry.2 ≠ ptr
  fits : ∀ request ∈ ctrl.wire, Fits request
  queue : ∀ op ∈ ctrl.rqstQ, op.ptr = ptr → op = read.op ptr
  flying : ∀ entry ∈ ctrl.outstanding, entry.2.ptr = ptr → entry.2 = split config (read.op ptr)
  sent : requestsOf ctrl ptr = [] ∨ ∃ id, requestsOf ctrl ptr =
    wireOf (split config (read.op ptr)) (flagsOf config (read.op ptr)) id 0 (piecesOf config (read.op ptr))
  keyed : ∀ request ∈ requestsOf ctrl ptr, ∀ entry ∈ ctrl.outstanding, entry.1 = request.id →
    entry.2.ptr = ptr
  hazard : ptr ∉ ctrl.deleted → ctrl.hazards read.hazard = true
  landed : ptr ∉ ctrl.deleted → ∀ request ∈ requestsOf ctrl ptr, request.id ∉ ctrl.requests →
    ∀ index < request.size, ctrl.host (read.target + read.offset request + index) =
      memory ((request.addr + index) % 2 ^ 64)

-- The call makes the operation; nothing of it is sent yet.
theorem Reading.start {good : Run → Event → Prop} {run : Run} (crossing : read.Crossing config)
    (reached : Reached config good run) :
    Reading config read run.ctrl.nextPtr memory (read.call.apply run.ctrl) := by
  have sound := reached_sound reached
  have traced := reached_traced reached
  have nonempty : read.size ≠ 0 := by
    have crosses := crossing.crosses
    omega
  have accepts : read.call.accepts = true := by
    simp [Call.accepts, ReadCall.call, Call.op, Call.isAMO, Ctrl.newOp, nonempty]
  obtain ⟨hazards, applied⟩ := Call.apply_accepted run.ctrl read.call accepts
  have none : requestsOf run.ctrl run.ctrl.nextPtr = [] := by
    rw [List.eq_nil_iff_forall_not_mem]
    intro request member
    obtain ⟨wired, same⟩ := mem_requestsOf.mp member
    exact absurd (sound.sent request wired).1 (by omega)
  have set : (read.call.apply run.ctrl).hazards read.hazard = true := by
    simp [ReadCall.call, Call.apply, Ctrl.sendREADRequest, nonempty, Ctrl.enqueue, Ctrl.setHazard]
  constructor
  case sound =>
    rw [applied]
    exact sound.enqueue { read.call.op with ptr := run.ctrl.nextPtr } _ hazards rfl rfl
  case made =>
    rw [applied]
    exact Nat.lt_succ_self _
  case alone =>
    rw [applied]
    intro entry member
    rcases List.mem_append.mp member with old | new
    · exact Nat.ne_of_lt (traced.bounded entry old)
    · simp [Call.entry, ReadCall.call, Call.isAMO] at new
  case fits =>
    rw [applied]
    exact reached_fits reached
  case queue =>
    rw [applied]
    intro op member same
    rcases List.mem_append.mp member with old | new
    · exact absurd same (Nat.ne_of_lt (sound.queued_lt old))
    · exact List.mem_singleton.mp new
  case flying =>
    rw [applied]
    intro entry member same
    exact absurd same (Nat.ne_of_lt (sound.held_lt member).1)
  case sent =>
    rw [applied]
    exact .inl none
  case keyed =>
    rw [applied]
    intro request member
    have mine : request ∈ requestsOf run.ctrl run.ctrl.nextPtr := member
    rw [none] at mine
    cases mine
  case hazard => exact fun _ => set
  case landed =>
    rw [applied]
    intro _ request member
    have mine : request ∈ requestsOf run.ctrl run.ctrl.nextPtr := member
    rw [none] at mine
    cases mine

/-- No other request of the operation is outstanding. -/
def Closing (ctrl : Ctrl) (id ptr : Nat) : Prop :=
  ∀ entry ∈ ctrl.outstanding, entry.2.ptr = ptr → entry.1 = id

theorem closing_iff {ctrl : Ctrl} {id : Nat} {op : RevMemOp} (sound : Sound ctrl)
    (held : (id, op) ∈ ctrl.outstanding) : ctrl.isLast op = true ↔ Closing ctrl id op.ptr := by
  have count := sound.count_settle held op.ptr
  rw [if_pos rfl] at count
  rw [sound.isLast_iff held, Ctrl.getNumSplitRqsts, count]
  constructor
  · intro one entry member same
    by_contra other
    have none : (ctrl.outstanding.filter fun entry => entry.1 != id).countP
        (fun entry => entry.2.ptr == op.ptr) = 0 := by omega
    rw [List.countP_eq_zero] at none
    exact none entry (List.mem_filter.mpr ⟨member, by simpa using other⟩) (by simpa using same)
  · intro closing
    have none : (ctrl.outstanding.filter fun entry => entry.1 != id).countP
        (fun entry => entry.2.ptr == op.ptr) = 0 := by
      rw [List.countP_eq_zero]
      intro entry member same
      obtain ⟨old, other⟩ := List.mem_filter.mp member
      exact absurd (closing entry old (by simpa using same)) (by simpa using other)
    rw [none]

theorem extendTarget_plain {flags : BitVec 32} (host : Nat → Byte) (target : Nat)
    (plain : has flags F_SEXT32 = false ∧ has flags F_SEXT64 = false ∧ has flags F_ZEXT32 = false ∧
      has flags F_ZEXT64 = false) : extendTarget host target flags = host := by
  obtain ⟨one, two, three, four⟩ := plain
  unfold extendTarget
  rw [one, two, three, four]
  rfl

/-- A response to the read: it is put where its request lies, and the last one clears the hazard. -/
structure Landing (read : ReadCall) (ptr id : Nat) (data : Buffer) (before after : Ctrl) : Prop where
  host : ∃ request ∈ requestsOf before ptr, request.id = id ∧
    after.host = flatStore before.host (read.target + read.offset request) request.size data
  hazards : after.hazards read.hazard = if ptr ∈ after.deleted then false else before.hazards read.hazard
  last : ptr ∈ after.deleted ↔ Closing before id ptr

theorem Reading.lands {ctrl : Ctrl} {id : Nat} {op : RevMemOp} (data : Buffer)
    (crossing : read.Crossing config) (reading : Reading config read ptr memory ctrl)
    (held : (id, op) ∈ ctrl.outstanding) (mine : op.ptr = ptr) :
    ∃ after, ctrl.respond config id data = .ok after ∧ Answered config ctrl id data op [] after ∧
      after.amoTable = ctrl.amoTable ∧ Landing read ptr id data ctrl after := by
  have sound := reading.sound
  have shape := reading.flying _ held mine
  dsimp only at shape
  subst shape
  obtain ⟨first, within, pieces⟩ := crossing_pieces crossing ptr
  have several : (split config (read.op ptr)).splitRqst = 2 := by
    rw [split, pieces]
    rfl
  obtain ⟨request, sent, same⟩ := sound.wired _ held
  have found := sound.find held
  have alone : ctrl.amoTable.any (Ctrl.ownEntry (split config (read.op ptr))) = false := by
    rw [List.any_eq_false]
    intro entry member own
    simp only [Ctrl.ownEntry, Bool.and_eq_true, beq_iff_eq] at own
    exact reading.alone entry member own.2
  obtain ⟨after, responded⟩ : ∃ after, ctrl.respond config id data = .ok after :=
    respond_total data (sound.known held) found sent same (sound.real _ held)
      (fun _ => ⟨read.target, read.hazard, rfl, rfl⟩)
  obtain ⟨created, answered⟩ := respond_ok found sent same responded
  have open' : closesAMO ctrl (split config (read.op ptr)) = false := by
    rw [closesAMO, alone, Bool.and_false]
  obtain ⟨rfl, table⟩ := answered.quiet open'
  obtain ⟨host, hazards⟩ := respond_read found sent same rfl responded
  have undeleted : ptr ∉ ctrl.deleted := by
    have none := (sound.held_lt held).2.2
    rwa [mine, List.count_eq_zero] at none
  have ends : ptr ∈ after.deleted ↔ ctrl.isLast (split config (read.op ptr)) = true := by
    rw [answered.deleted, List.mem_append]
    by_cases last : ctrl.isLast (split config (read.op ptr)) = true
    · rw [if_pos last, List.mem_singleton]
      exact iff_of_true (.inr mine.symm) last
    · rw [if_neg last]
      exact iff_of_false (by simp [undeleted]) last
  have stored : copiedHost ctrl (split config (read.op ptr)) request data =
      flatStore ctrl.host (read.target + read.offset request) request.size data := by
    rw [copiedHost, several]
    rfl
  have finished : ∀ host, finishedHost config { ctrl with host := host } (split config (read.op ptr)) =
      host := by
    intro host
    simp only [finishedHost, alone]
    exact extendTarget_plain host read.target crossing.plain
  refine ⟨after, responded, answered, table.resolve_right (fun writes => by cases writes.1), ?_, ?_, ?_⟩
  · refine ⟨request, mem_requestsOf.mpr ⟨List.mem_of_find?_eq_some sent, by rw [same]; exact mine⟩, ?_, ?_⟩
    · simpa using List.find?_some sent
    · rw [host, finished, stored, ite_self]
  · rw [hazards]
    by_cases last : ctrl.isLast (split config (read.op ptr)) = true
    · rw [if_pos last, if_pos (ends.mpr last)]
      exact Function.update_self _ _ _
    · rw [if_neg last, if_neg (fun ended => last (ends.mp ended))]
  · rw [ends, closing_iff sound held, mine]

/-- The parts that a step leaves alone unless it answers a request of the read. -/
structure Aside (read : ReadCall) (ptr : Nat) (before after : Ctrl) : Prop where
  requests : ∀ request ∈ requestsOf before ptr, request.id ∉ after.requests →
    request.id ∉ before.requests
  deleted : ptr ∉ after.deleted → ptr ∉ before.deleted
  hazard : ptr ∉ after.deleted → before.hazards read.hazard = true → after.hazards read.hazard = true
  host : ptr ∉ after.deleted → ∀ cell, read.target ≤ cell → cell < read.target + read.size →
    after.host cell = before.host cell

theorem Reading.within {ctrl : Ctrl} {request : Request} (reading : Reading config read ptr memory ctrl)
    (member : request ∈ requestsOf ctrl ptr) : read.offset request + request.size ≤ read.size := by
  have bound := offset_le (reading.fits request (mem_requestsOf.mp member).1)
  have shape : request.op = split config (read.op ptr) := by
    rcases reading.sent with none | ⟨id, all⟩
    · rw [none] at member
      cases member
    · rw [all] at member
      exact (wireOf_mem member).1
  rw [shape] at bound
  exact bound

theorem Aside.landed {before after : Ctrl} (aside : Aside read ptr before after)
    (reading : Reading config read ptr memory before) (same : requestsOf after ptr = requestsOf before ptr) :
    ptr ∉ after.deleted → ∀ request ∈ requestsOf after ptr, request.id ∉ after.requests →
      ∀ index < request.size, after.host (read.target + read.offset request + index) =
        memory ((request.addr + index) % 2 ^ 64) := by
  intro open' request member gone index inside
  rw [same] at member
  have old := reading.landed (aside.deleted open') request member (aside.requests request member gone)
    index inside
  rw [← old]
  have within := reading.within member
  exact aside.host open' _ (by omega) (by omega)

theorem Reading.halves {ctrl : Ctrl} (crossing : read.Crossing config)
    (reading : Reading config read ptr memory ctrl) : requestsOf ctrl ptr = [] ∨
    ∃ first id one two, first ≤ read.size ∧ requestsOf ctrl ptr = [one, two] ∧
      Halves read first id one two := by
  rcases reading.sent with none | ⟨id, all⟩
  · exact .inl none
  · obtain ⟨first, one, two, within, wire, halves⟩ := crossing_halves crossing ptr id _
    exact .inr ⟨first, id, one, two, within, all.trans wire, halves⟩

-- What the one response wrote the other one does not touch.
theorem Reading.land {ctrl after : Ctrl} {id : Nat} {data : Buffer} (crossing : read.Crossing config)
    (reading : Reading config read ptr memory ctrl) (open' : ptr ∉ ctrl.deleted)
    (carries : ∀ request ∈ ctrl.wire, request.id = id →
      ∀ index < request.size, data index = memory ((request.addr + index) % 2 ^ 64))
    (answered : Answered config ctrl id data (split config (read.op ptr)) [] after)
    (landing : Landing read ptr id data ctrl after) :
    ∀ request ∈ requestsOf ctrl ptr, request.id ∉ after.requests →
      ∀ index < request.size, after.host (read.target + read.offset request + index) =
        memory ((request.addr + index) % 2 ^ 64) := by
  obtain ⟨request, mine, named, stored⟩ := landing.host
  intro other member gone index inside
  rw [stored]
  by_cases same : other.id = id
  · have equal : other = request := by
      rcases reading.halves crossing with none | ⟨first, start, one, two, within, all, halves⟩
      · rw [none] at mine
        cases mine
      · have ids := halves.ids
        rw [all] at mine member
        simp only [List.mem_cons, List.not_mem_nil, or_false] at mine member
        rcases mine with rfl | rfl
        · rcases member with rfl | rfl
          · rfl
          · omega
        · rcases member with rfl | rfl
          · omega
          · rfl
    subst equal
    rw [flatStore_inside _ _ _ inside]
    exact carries other (mem_requestsOf.mp member).1 same index inside
  · have early : other.id ∉ ctrl.requests := by
      intro still
      apply gone
      rw [answered.requests]
      exact (List.mem_erase_of_ne same).mpr still
    have apart : ¬ (read.target + read.offset request ≤ read.target + read.offset other + index ∧
        read.target + read.offset other + index < read.target + read.offset request + request.size) := by
      rcases reading.halves crossing with none | ⟨first, start, one, two, within, all, halves⟩
      · rw [none] at mine
        cases mine
      · obtain ⟨ids, -, sizes, offsets⟩ := halves
        rw [all] at mine member
        simp only [List.mem_cons, List.not_mem_nil, or_false] at mine member
        rcases mine with rfl | rfl
        · rcases member with rfl | rfl
          · exact absurd named same
          · omega
        · rcases member with rfl | rfl
          · omega
          · exact absurd named same
    rw [flatStore_outside _ _ _ apart]
    exact reading.landed open' other member early index inside

theorem requestsOf_sentOff {ctrl : Ctrl} {front back : List RevMemOp} {op : RevMemOp} {lane : Lane} :
    requestsOf (sentOff config ctrl front op back lane) ptr = requestsOf ctrl ptr ++
      if op.ptr = ptr then
        wireOf (split config op) (flagsOf config op) ctrl.nextId 0 (piecesOf config op)
      else [] := by
  simp only [requestsOf, sentOff, dispatched, List.filter_append]
  congr 1
  split
  · rename_i mine
    apply List.filter_eq_self.mpr
    intro request member
    rw [wireOf_op _ _ _ request member]
    simpa [split] using mine
  · rename_i other
    apply List.filter_eq_nil_iff.mpr
    intro request member
    rw [wireOf_op _ _ _ request member]
    simpa [split] using other

section Steps
variable {ctrl : Ctrl} (reading : Reading config read ptr memory ctrl)
include reading

theorem Reading.accepted {call : Call} {hazards : Nat → Bool} (sound : Sound (called ctrl call hazards))
    (kept : ctrl.hazards read.hazard = true → hazards read.hazard = true) :
    Reading config read ptr memory (called ctrl call hazards) := by
  have aside : Aside read ptr ctrl (called ctrl call hazards) :=
    ⟨fun _ _ gone => gone, fun open' => open', fun _ => kept, fun _ _ _ _ => rfl⟩
  refine ⟨sound, Nat.lt_succ_of_lt reading.made, ?_, reading.fits, ?_, reading.flying, reading.sent,
    reading.keyed, fun open' => kept (reading.hazard open'), aside.landed reading rfl⟩
  · intro entry member
    rcases List.mem_append.mp member with old | new
    · exact reading.alone entry old
    · unfold Call.entry at new
      split at new
      · rw [List.mem_singleton.mp new]
        exact Nat.ne_of_gt reading.made
      · cases new
  · intro op member same
    rcases List.mem_append.mp member with old | new
    · exact reading.queue op old same
    · rw [List.mem_singleton.mp new] at same
      exact absurd same (Nat.ne_of_gt reading.made)

variable {tick : Tick} {front back : List RevMemOp} {op : RevMemOp} {lane : Lane}

theorem Reading.takenFence (sound : Sound (fenced ctrl front op back))
    (taken : Taken config tick ctrl front op back) :
    Reading config read ptr memory (fenced ctrl front op back) := by
  have aside : Aside read ptr ctrl (fenced ctrl front op back) :=
    ⟨fun _ _ gone => gone, fun open' old => open' (List.mem_append_left _ old),
      fun _ set => set, fun _ _ _ _ => rfl⟩
  exact ⟨sound, reading.made, reading.alone, reading.fits,
    fun op member => reading.queue op ((sublist_taken taken.queue).subset member), reading.flying,
    reading.sent, reading.keyed, fun open' => reading.hazard (aside.deleted open'),
    aside.landed reading rfl⟩

-- An operation of the queue has no request yet.
theorem Reading.unsent (member : op ∈ ctrl.rqstQ) (mine : op.ptr = ptr) : requestsOf ctrl ptr = [] := by
  rw [List.eq_nil_iff_forall_not_mem]
  intro request sent
  obtain ⟨wired, named⟩ := mem_requestsOf.mp sent
  have none := (reading.sound.sent request wired).2
  have some : 0 < queued ctrl op.ptr := List.countP_pos_iff.mpr ⟨op, member, by simp⟩
  rw [named, ← mine] at none
  omega

theorem Reading.takenSent (sound : Sound (sentOff config ctrl front op back lane))
    (taken : Taken config tick ctrl front op back) :
    Reading config read ptr memory (sentOff config ctrl front op back lane) := by
  have member : op ∈ ctrl.rqstQ := by simp [taken.queue]
  have aside : Aside read ptr ctrl (sentOff config ctrl front op back lane) :=
    ⟨fun _ _ gone old => gone (List.mem_append_left _ old), fun open' => open', fun _ set => set,
      fun _ _ _ _ => rfl⟩
  refine ⟨sound, reading.made, reading.alone, ?_,
    fun other waits => reading.queue other ((sublist_taken taken.queue).subset waits), ?_, ?_, ?_,
    reading.hazard, ?_⟩
  · intro request wired
    rcases List.mem_append.mp wired with old | new
    · exact reading.fits request old
    · exact dispatched_fits config op _ request new
  · intro entry flies same
    rcases mem_sentOff.mp flies with old | ⟨new, -⟩
    · exact reading.flying entry old same
    · rw [new] at same ⊢
      rw [reading.queue op member same]
  · rw [requestsOf_sentOff]
    by_cases mine : op.ptr = ptr
    · rw [reading.unsent member mine, if_pos mine, reading.queue op member mine]
      exact .inr ⟨_, rfl⟩
    · rw [if_neg mine, List.append_nil]
      exact reading.sent
  · intro request sent entry flies same
    rw [requestsOf_sentOff] at sent
    rcases List.mem_append.mp sent with old | new
    · have early := reading.sound.wireIds request (mem_requestsOf.mp old).1
      rcases mem_sentOff.mp flies with held | ⟨-, late, -⟩
      · exact reading.keyed request old entry held same
      · omega
    · split at new
      · rename_i mine
        obtain ⟨-, late, -⟩ := wireOf_mem new
        rcases mem_sentOff.mp flies with held | ⟨shape, -⟩
        · have early := reading.sound.fresh entry held
          omega
        · rw [shape]
          exact mine
      · cases new
  · by_cases mine : op.ptr = ptr
    · -- The requests of the read are all new, and none of them is answered yet.
      intro _ request sent gone
      rw [requestsOf_sentOff, if_pos mine, reading.unsent member mine, List.nil_append] at sent
      obtain ⟨-, low, high⟩ := wireOf_mem sent
      exact absurd (List.mem_append_right _ (List.mem_range'_1.mpr ⟨low, high⟩)) gone
    · refine aside.landed reading ?_
      rw [requestsOf_sentOff, if_neg mine, List.append_nil]

variable {after : Ctrl} {id : Nat} {data : Buffer}

theorem Reading.ownAnswer (crossing : read.Crossing config) (sound : Sound after)
    (held : (id, split config (read.op ptr)) ∈ ctrl.outstanding)
    (carries : ∀ request ∈ ctrl.wire, request.id = id →
      ∀ index < request.size, data index = memory ((request.addr + index) % 2 ^ 64))
    (answered : Answered config ctrl id data (split config (read.op ptr)) [] after)
    (table : after.amoTable = ctrl.amoTable) (landing : Landing read ptr id data ctrl after) :
    Reading config read ptr memory after := by
  have open' : ptr ∉ ctrl.deleted := by
    have none : ctrl.deleted.count ptr = 0 := (reading.sound.held_lt held).2.2
    rwa [List.count_eq_zero] at none
  have wire : requestsOf after ptr = requestsOf ctrl ptr := by
    rw [requestsOf, answered.wire, requestsOf]
  refine ⟨sound, ?_, ?_, ?_, ?_, ?_, ?_, ?_, ?_, ?_⟩
  · rw [answered.nextPtr]
    exact reading.made
  · rw [table]
    exact reading.alone
  · rw [answered.wire]
    exact reading.fits
  · rw [answered.rqstQ, List.append_nil]
    exact reading.queue
  · rw [answered.outstanding]
    exact fun entry member => reading.flying entry (List.mem_of_mem_filter member)
  · rw [wire]
    exact reading.sent
  · rw [wire, answered.outstanding]
    exact fun request member entry flies => reading.keyed request member entry (List.mem_of_mem_filter flies)
  · intro still
    rw [landing.hazards, if_neg still]
    exact reading.hazard open'
  · intro _
    rw [wire]
    exact reading.land crossing open' carries answered landing

theorem Reading.otherAnswer {created : List RevMemOp} (sound : Sound after)
    (held : (id, op) ∈ ctrl.outstanding) (other : op.ptr ≠ ptr)
    (answered : Answered config ctrl id data op created after)
    (hazards : ptr ∉ after.deleted → after.hazards read.hazard = ctrl.hazards read.hazard)
    (host : ptr ∉ after.deleted → ∀ cell, read.target ≤ cell → cell < read.target + read.size →
      after.host cell = ctrl.host cell) : Reading config read ptr memory after := by
  have wire : requestsOf after ptr = requestsOf ctrl ptr := by
    rw [requestsOf, answered.wire, requestsOf]
  have open' : ptr ∉ after.deleted → ptr ∉ ctrl.deleted := by
    intro still old
    apply still
    rw [answered.deleted]
    exact List.mem_append_left _ old
  have aside : Aside read ptr ctrl after := by
    refine ⟨fun request member gone still => ?_, open', fun still set => ?_, host⟩
    · rw [answered.requests] at gone
      have named : request.id = id := by
        by_contra differs
        exact gone ((List.mem_erase_of_ne differs).mpr still)
      exact other (reading.keyed request member _ held named.symm)
    · rw [hazards still, set]
  refine ⟨sound, ?_, ?_, ?_, ?_, ?_, ?_, ?_, ?_, aside.landed reading wire⟩
  · rw [answered.nextPtr]
    exact Nat.lt_add_right _ reading.made
  · intro entry member
    cases closes : closesAMO ctrl op with
    | false =>
      obtain ⟨-, kept | ⟨-, kept⟩⟩ := answered.quiet closes
      · rw [kept] at member
        exact reading.alone entry member
      · rw [kept] at member
        exact reading.alone entry (List.mem_of_mem_filter member)
    | true =>
      rw [(answered.modifies closes).1] at member
      rcases List.mem_append.mp (List.mem_of_mem_eraseP member) with old | new
      · exact reading.alone entry old
      · rw [List.mem_singleton.mp new]
        exact Nat.ne_of_gt reading.made
  · rw [answered.wire]
    exact reading.fits
  · rw [answered.rqstQ]
    intro waiting member same
    rcases List.mem_append.mp member with old | new
    · exact reading.queue waiting old same
    · rw [created_ptr answered waiting new] at same
      exact absurd same (Nat.ne_of_gt reading.made)
  · rw [answered.outstanding]
    exact fun entry member => reading.flying entry (List.mem_of_mem_filter member)
  · rw [wire]
    exact reading.sent
  · rw [wire, answered.outstanding]
    exact fun request member entry flies => reading.keyed request member entry (List.mem_of_mem_filter flies)
  · exact fun still => aside.hazard still (reading.hazard (open' still))

end Steps

theorem Reading.step {run after : Run} {event : Event} (crossing : read.Crossing config)
    (reading : Reading config read ptr memory run.ctrl) (legal : Legal run event)
    (carries : ReadCall.Carries ptr memory run event) (spared : read.Spared ptr run event)
    (stepped : run.step config event = .ok after) :
    Reading config read ptr memory after.ctrl := by
  have sound := reading.sound
  have move := step_move sound legal stepped
  have sound' := move.sound sound
  cases event with
  | send call =>
    have kept : run.ctrl.hazards read.hazard = true → after.ctrl.hazards read.hazard = true := by
      cases stepped
      exact apply_keeps call
    cases move with
    | refuse _ refused => exact reading
    | accept _ accepts hazards => exact reading.accepted sound' kept
  | begin =>
    cases move with
    | start fences tick opening =>
      exact ⟨sound', reading.made, reading.alone, reading.fits, reading.queue, reading.flying,
        reading.sent, reading.keyed, reading.hazard, reading.landed⟩
  | next =>
    cases move with
    | idle tick => exact reading
    | fence tick front op back running taken kind => exact reading.takenFence sound' taken
    | dispatch tick front op back lane next running taken isLane sends =>
      exact reading.takenSent sound' taken
  | respond id data =>
    have known := legal.2
    rw [sound.keys, List.mem_map] at known
    obtain ⟨⟨id, op⟩, held, rfl⟩ := known
    obtain ⟨request, sent, same⟩ := sound.wired _ held
    have found := sound.find held
    simp only [Run.step] at stepped
    by_cases mine : op.ptr = ptr
    · obtain ⟨next, responded, answered, table, landing⟩ := reading.lands data crossing held mine
      rw [responded] at stepped
      cases stepped
      have shape := reading.flying _ held mine
      dsimp only at shape
      subst shape
      exact reading.ownAnswer crossing sound' held (carries _ held mine) answered table landing
    · cases responded : run.ctrl.respond config id data with
      | error fault =>
        rw [responded] at stepped
        cases stepped
      | ok next =>
        rw [responded] at stepped
        cases stepped
        obtain ⟨created, answered⟩ := respond_ok found sent same responded
        obtain ⟨host, hazards⟩ := respond_frame found sent same
          (reading.fits request (List.mem_of_find?_eq_some sent)) responded
        have open' : ptr ∉ next.deleted → ptr ∉ run.ctrl.deleted := by
          intro still old
          apply still
          rw [answered.deleted]
          exact List.mem_append_left _ old
        refine reading.otherAnswer sound' held mine answered (fun still => ?_)
          fun still cell low high => ?_
        · exact hazards _ (spared op held mine (open' still)).1
        · exact host cell ((spared op held mine (open' still)).2 cell low high)

theorem Reading.goes {run later : Run} (crossing : read.Crossing config)
    (reading : Reading config read ptr memory run.ctrl) (goes : read.Goes config ptr memory run later) :
    Reading config read ptr memory later.ctrl := by
  induction goes with
  | refl => exact reading
  | tail _ step ih =>
    obtain ⟨event, legal, ⟨carries, spared⟩, stepped⟩ := step
    exact ih.step crossing legal carries spared stepped

theorem Reading.complete {ctrl after : Ctrl} {id : Nat} {data : Buffer} (crossing : read.Crossing config)
    (reading : Reading config read ptr memory ctrl)
    (landed : ∀ request ∈ requestsOf ctrl ptr, request.id ∉ after.requests →
      ∀ index < request.size, after.host (read.target + read.offset request + index) =
        memory ((request.addr + index) % 2 ^ 64))
    (answered : Answered config ctrl id data (split config (read.op ptr)) [] after)
    (some : requestsOf ctrl ptr ≠ []) (closing : Closing ctrl id ptr) :
    ∀ index < read.size, after.host (read.target + index) = memory ((read.addr + index) % 2 ^ 64) := by
  have sound := reading.sound
  have gone : ∀ request ∈ requestsOf ctrl ptr, request.id ∉ after.requests := by
    intro request member still
    rw [answered.requests, sound.nodup.mem_erase_iff, sound.keys, List.mem_map] at still
    obtain ⟨other, ⟨op, flies, same⟩⟩ := still
    exact other (same ▸ closing op flies (reading.keyed request member op flies same))
  intro index inside
  rcases reading.halves crossing with none | ⟨first, start, one, two, within, all, halves⟩
  · exact absurd none some
  · obtain ⟨-, addrs, sizes, offsets⟩ := halves
    rw [all] at landed gone
    by_cases low : index < first
    · have bytes := landed one (.head _) (gone one (.head _)) index (by omega)
      rwa [offsets.1, addrs.1, Nat.add_zero] at bytes
    · have bytes := landed two (.tail _ (.head _)) (gone two (.tail _ (.head _))) (index - first) (by omega)
      rw [offsets.2, addrs.2, Nat.mod_add_mod, Nat.add_assoc, Nat.add_assoc,
        Nat.add_sub_cancel' (Nat.le_of_not_lt low)] at bytes
      exact bytes

/-- The read in a state of its run: its hazard is set while it is not complete, it is sent as two
requests, and a response to one of them is taken without a fault. -/
structure Reassembles (config : Config) (read : ReadCall) (ptr : Nat) (memory : Nat → Byte) (run : Run) :
    Prop where
  waits : ptr ∉ run.ctrl.deleted → run.ctrl.hazards read.hazard = true
  twice : requestsOf run.ctrl ptr = [] ∨ (requestsOf run.ctrl ptr).length = 2
  answer : ∀ id data op, (id, op) ∈ run.ctrl.outstanding → op.ptr = ptr →
    ReadCall.Carries ptr memory run (.respond id data) →
    ∃ after, run.step config (.respond id data) = .ok after ∧
      (∀ cell, ¬ (read.target ≤ cell ∧ cell < read.target + read.size) →
        after.ctrl.host cell = run.ctrl.host cell) ∧
      (¬ Closing run.ctrl id ptr →
        ptr ∉ after.ctrl.deleted ∧ after.ctrl.hazards read.hazard = true) ∧
      (Closing run.ctrl id ptr → ptr ∈ after.ctrl.deleted ∧ after.ctrl.hazards read.hazard = false ∧
        ∀ index < read.size,
          after.ctrl.host (read.target + index) = memory ((read.addr + index) % 2 ^ 64))

/-- In every run from the call on in which no response to another operation carries the read's hazard
or reaches its target before it is complete, the two responses put the memory's bytes in place in
whatever order they come, and the last one clears the hazard. -/
theorem split_read_reassembled {good : Run → Event → Prop} {run start later : Run}
    (crossing : read.Crossing config) (reached : Reached config good run)
    (called : run.step config (.send read.call) = .ok start)
    (goes : read.Goes config run.ctrl.nextPtr memory start later) :
    Reassembles config read run.ctrl.nextPtr memory later := by
  have begun : Reading config read run.ctrl.nextPtr memory start.ctrl := by
    cases called
    exact Reading.start crossing reached
  have reading := begun.goes crossing goes
  have sound := reading.sound
  have halves := reading.halves crossing
  constructor
  · exact reading.hazard
  · rcases halves with none | ⟨first, id, one, two, within, all, -⟩
    · exact .inl none
    · right
      rw [all]
      rfl
  · intro id data op held mine carries
    obtain ⟨after, responded, answered, -, landing⟩ := reading.lands data crossing held mine
    have shape := reading.flying _ held mine
    dsimp only at shape
    subst shape
    have open' : run.ctrl.nextPtr ∉ later.ctrl.deleted := by
      have none := (sound.held_lt held).2.2
      rwa [mine, List.count_eq_zero] at none
    have landed := reading.land crossing open' (carries _ held mine) answered landing
    obtain ⟨request, member, named, stored⟩ := landing.host
    refine ⟨_, by rw [Run.step, responded], ?_, ?_, ?_⟩
    · intro cell outside
      have within := reading.within member
      dsimp only
      rw [stored, flatStore_outside]
      omega
    · intro more
      have still : run.ctrl.nextPtr ∉ after.deleted := fun ended => more (landing.last.mp ended)
      refine ⟨still, ?_⟩
      dsimp only
      rw [landing.hazards, if_neg still]
      exact reading.hazard open'
    · intro closing
      have ended := landing.last.mpr closing
      refine ⟨ended, ?_, reading.complete crossing landed answered (List.ne_nil_of_mem member) closing⟩
      dsimp only
      rw [landing.hazards, if_pos ended]

def acrossLines : ReadCall where
  hart := 0
  addr := 262140
  pAddr := 262140
  size := 8
  target := 100
  hazard := 0
  flags := 0

theorem acrossLines_crossing : acrossLines.Crossing lines64 where
  lines := by decide
  short := by decide
  crosses := by decide
  cacheable := by decide
  plain := by decide
  inside := by decide

theorem path_seen {good : Run → Event → Prop} {test : Run → Event → Bool} {β : Type} {outcome : β}
    (observe : Run → β) {run : Run} {events : List Event}
    (meets : ∀ event ∈ events, ∀ run, test run event = true → good run event)
    (seen : (follow config test run events).map observe = some outcome) :
    ∃ later, Relation.ReflTransGen
      (fun run after => ∃ event, Legal run event ∧ good run event ∧ run.step config event = .ok after)
      run later ∧ observe later = outcome := by
  induction events generalizing run with
  | nil => exact ⟨run, .refl, Option.some.inj seen⟩
  | cons event rest ih =>
    rw [follow] at seen
    split at seen
    · rename_i possible
      rw [Bool.and_eq_true, isLegal_iff] at possible
      split at seen
      · cases seen
      · rename_i next stepped
        obtain ⟨later, path, observed⟩ := ih (fun other member => meets other (.tail _ member)) seen
        exact ⟨later, .head ⟨event, possible.1, meets event (.head _) run possible.2, stepped⟩ path,
          observed⟩
    · cases seen

def ownOnly (ptr : Nat) (run : Run) : Event → Bool
  | .respond _ _ => run.ctrl.outstanding.all fun held => held.2.ptr == ptr
  | _ => true

theorem spared_of_own {ptr : Nat} {run : Run} {event : Event} (own : ownOnly ptr run event = true) :
    read.Spared ptr run event := by
  cases event with
  | respond id data =>
    intro op held other _
    rw [ownOnly, List.all_eq_true] at own
    exact absurd (beq_iff_eq.mp (own _ held)) other
  | _ => trivial

-- The half behind the line boundary comes first; the other one then clears the hazard.
theorem split_read_reassembled_swapped : ∃ start later last,
    emptyRun.step lines64 (.send acrossLines.call) = .ok start ∧
    acrossLines.Goes lines64 0 (fun _ => 7) start later ∧ later.ctrl.requests = [0] ∧
    Reassembles lines64 acrossLines 0 (fun _ => 7) later ∧
    later.step lines64 (.respond 0 fun _ => 7) = .ok last ∧
    last.ctrl.deleted = [0] ∧ last.ctrl.hazards 0 = false ∧
    (List.range 8).map (fun index => last.ctrl.host (100 + index)) = List.replicate 8 7 := by
  have seen : (follow lines64 (ownOnly 0)
      ⟨acrossLines.call.apply emptyCtrl, none, [(0, acrossLines.call)], []⟩
      [.begin, .next, .next, .respond 1 fun _ => 7]).map
        (fun run => (run.ctrl.requests, (run.step lines64 (.respond 0 fun _ => 7)).toOption.map
          fun last => (last.ctrl.deleted, last.ctrl.hazards 0,
            (List.range 8).map fun index => last.ctrl.host (100 + index)))) =
      some ([0], some ([0], false, List.replicate 8 7)) := by decide +kernel
  have meets : ∀ event ∈ [.begin, .next, .next, .respond 1 fun _ => 7], ∀ run,
      ownOnly 0 run event = true →
        ReadCall.Carries 0 (fun _ => 7) run event ∧ acrossLines.Spared 0 run event := by
    rintro event (_ | ⟨_, _ | ⟨_, _ | ⟨_, _ | ⟨_, ⟨⟩⟩⟩⟩⟩) run own
    · exact ⟨trivial, spared_of_own own⟩
    · exact ⟨trivial, spared_of_own own⟩
    · exact ⟨trivial, spared_of_own own⟩
    · exact ⟨fun op held mine request wired same index inside => rfl, spared_of_own own⟩
  obtain ⟨later, goes, observed⟩ := path_seen _ meets seen
  have reached : Reached lines64 (fun _ _ => True) emptyRun := .start _ _
  simp only [Prod.mk.injEq] at observed
  obtain ⟨waiting, answered⟩ := observed
  cases stepped : later.step lines64 (.respond 0 fun _ => 7) with
  | error fault =>
    rw [stepped] at answered
    cases answered
  | ok last =>
    rw [stepped] at answered
    simp only [Except.toOption, Option.map_some, Option.some.injEq, Prod.mk.injEq] at answered
    exact ⟨_, later, last, rfl, goes, waiting,
      split_read_reassembled acrossLines_crossing reached rfl goes, stepped, answered⟩

/-- ReadMem queues two reads for one access that leaves its page, with one hazard. When the first is
complete the hazard is clear, and nothing of the second has come. -/
theorem shared_hazard_clears_early : ¬ ∀ (read : ReadCall) (run start later : Run),
    read.Crossing lines64 → Reached lines64 (fun _ _ => True) run →
    run.step lines64 (.send read.call) = .ok start →
    Relation.ReflTransGen (fun run' after => ∃ event, Legal run' event ∧
      ReadCall.Carries run.ctrl.nextPtr (fun _ => 0) run' event ∧ run'.step lines64 event = .ok after)
      start later →
    run.ctrl.nextPtr ∉ later.ctrl.deleted → later.ctrl.hazards read.hazard = true := by
  intro waits
  have seen : (follow lines64 (fun _ _ => true)
      ⟨{ acrossLines with target := 104 }.call.apply (acrossLines.call.apply emptyCtrl), none,
        [(0, acrossLines.call), (1, { acrossLines with target := 104 }.call)], []⟩
      [.begin, .next, .next, .next, .respond 0 fun _ => 0, .respond 1 fun _ => 0]).map
        (fun run => (run.ctrl.requests, run.ctrl.deleted, run.ctrl.hazards 0)) =
      some ([2, 3], [0], false) := by decide
  have meets : ∀ event ∈ [.begin, .next, .next, .next, .respond 0 fun _ => 0, .respond 1 fun _ => 0],
      ∀ run, true = true → ReadCall.Carries 1 (fun _ => 0) run event := by
    rintro event (_ | ⟨_, _ | ⟨_, _ | ⟨_, _ | ⟨_, _ | ⟨_, _ | ⟨_, ⟨⟩⟩⟩⟩⟩⟩⟩) run _
    · trivial
    · trivial
    · trivial
    · trivial
    · exact fun op held mine request wired same index inside => rfl
    · exact fun op held mine request wired same index inside => rfl
  obtain ⟨later, path, observed⟩ := path_seen _ meets seen
  have first : Reached lines64 (fun _ _ => True)
      ⟨acrossLines.call.apply emptyCtrl, none, [(0, acrossLines.call)], []⟩ :=
    .step (.start (fun _ => 0) fun _ => false) (.send acrossLines.call) rfl trivial rfl
  simp only [Prod.mk.injEq] at observed
  have clear := waits { acrossLines with target := 104 } _ _ later
    ⟨by decide, by decide, by decide, by decide, by decide, by decide⟩ first rfl path
    (by rw [observed.2.1]; decide)
  exact Bool.false_ne_true (observed.2.2.symm.trans clear)

end Reading
end RevCPU.MemCtrl
