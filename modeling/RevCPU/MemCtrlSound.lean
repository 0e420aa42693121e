import RevCPU.MemCtrlRun
/-!
What each event can do to a controller in order is a `Move`, and `Sound` is what every move keeps: the
request ids and the outstanding map agree, and an operation is queued, in flight or deleted.
-/
namespace RevCPU.MemCtrl
open Mem MemRefine RegFile Atomic

section Moves
variable (config : Config)

def called (ctrl : Ctrl) (call : Call) (hazards : Nat → Bool) : Ctrl :=
  { ctrl with
      rqstQ := ctrl.rqstQ ++ [{ call.op with ptr := ctrl.nextPtr }]
      nextPtr := ctrl.nextPtr + 1
      hazards := hazards
      amoTable := ctrl.amoTable ++ call.entry ctrl.nextPtr }

/-- The controller after an operation is taken from the queue and sent. -/
def sentOff (ctrl : Ctrl) (front : List RevMemOp) (op : RevMemOp) (back : List RevMemOp) (lane : Lane) :
    Ctrl :=
  { dispatched ctrl (split config op) lane (flagsOf config op) 0 (piecesOf config op) with
      rqstQ := front ++ back }

/-- What clockTick finds about fences before its loop. -/
def Opening (ctrl : Ctrl) (fences : Nat) (tick : Option Tick) : Prop :=
  (tick = none ∧ fences = ctrl.numFence) ∨
    (tick = some Tick.new ∧ (ctrl.numFence = 0 ∧ fences = 0 ∨
      ctrl.numFence = fences + 1 ∧ ctrl.waits = false))

inductive Move (run : Run) : Event → Run → Prop
  | refuse (call : Call) (refused : call.accepts = false) : Move run (.send call) run
  | accept (call : Call) (accepts : call.accepts = true) (hazards : Nat → Bool) :
    Move run (.send call)
      { run with
          ctrl := called run.ctrl call hazards
          accepted := run.accepted ++ [(run.ctrl.nextPtr, call)] }
  | answer (id : Nat) (data : Buffer) (op : RevMemOp) (created : List RevMemOp) (ctrl : Ctrl)
    (held : (id, op) ∈ run.ctrl.outstanding)
    (answered : Answered config run.ctrl id data op created ctrl) :
    Move run (.respond id data)
      { run with
          ctrl := ctrl
          writes := run.writes ++ created.map fun write => (op.ptr, write.ptr) }
  | start (fences : Nat) (tick : Option Tick) (opening : Opening run.ctrl fences tick) :
    Move run .begin { run with ctrl := { run.ctrl with numFence := fences }, tick := tick }
  | idle (tick : Option Tick) : Move run .next { run with tick := tick }
  | fence (tick : Tick) (front : List RevMemOp) (op : RevMemOp) (back : List RevMemOp)
    (running : run.tick = some tick) (taken : Taken config tick run.ctrl front op back)
    (kind : op.op = .FENCE) :
    Move run .next { run with ctrl := fenced run.ctrl front op back, tick := none }
  | dispatch (tick : Tick) (front : List RevMemOp) (op : RevMemOp) (back : List RevMemOp) (lane : Lane)
    (next : Option Tick) (running : run.tick = some tick)
    (taken : Taken config tick run.ctrl front op back) (isLane : op.op.lane = some lane)
    (sends : Sends config run.ctrl front op) :
    Move run .next { run with ctrl := sentOff config run.ctrl front op back lane, tick := next }

end Moves

section Places
variable {config : Config} {ctrl : Ctrl}

def inFlight (ctrl : Ctrl) (ptr : Nat) : Bool := ctrl.outstanding.any fun entry => entry.2.ptr == ptr

def queued (ctrl : Ctrl) (ptr : Nat) : Nat := ctrl.rqstQ.countP fun op => op.ptr == ptr

/-- In how many of its states an operation is. -/
def places (ctrl : Ctrl) (ptr : Nat) : Nat :=
  queued ctrl ptr + (inFlight ctrl ptr).toNat + ctrl.deleted.count ptr

structure Sound (ctrl : Ctrl) : Prop where
  sorted : ctrl.rqstQ.Pairwise fun earlier later => earlier.ptr < later.ptr
  whole : ∀ op ∈ ctrl.rqstQ, op.splitRqst = 1
  keys : ctrl.requests = ctrl.outstanding.map Prod.fst
  nodup : ctrl.requests.Nodup
  fresh : ∀ entry ∈ ctrl.outstanding, entry.1 < ctrl.nextId
  placed : ∀ ptr, places ctrl ptr = if ptr < ctrl.nextPtr then 1 else 0
  same : ∀ one ∈ ctrl.outstanding, ∀ other ∈ ctrl.outstanding, one.2.ptr = other.2.ptr → one.2 = other.2
  single : ∀ entry ∈ ctrl.outstanding, entry.2.splitRqst ≤ 1 → ctrl.getNumSplitRqsts entry.2 = 1
  real : ∀ entry ∈ ctrl.outstanding, entry.2.op ≠ .FENCE
  wired : ∀ entry ∈ ctrl.outstanding, ∃ request,
    ctrl.wire.find? (fun request => request.id == entry.1) = some request ∧ request.op = entry.2
  wireIds : ∀ request ∈ ctrl.wire, request.id < ctrl.nextId
  sent : ∀ request ∈ ctrl.wire, request.op.ptr < ctrl.nextPtr ∧ queued ctrl request.op.ptr = 0

theorem sound_new (host : Nat → Byte) (hazards : Nat → Bool) : Sound (Ctrl.new host hazards) := by
  constructor <;> simp [Ctrl.new, places, queued, inFlight]

section Entries
variable {entries : List (Nat × RevMemOp)} {id : Nat} {op : RevMemOp}

theorem find_held (nodup : (entries.map Prod.fst).Nodup) (held : (id, op) ∈ entries) :
    entries.find? (fun entry => entry.1 == id) = some (id, op) := by
  induction entries with
  | nil => simp at held
  | cons entry rest ih =>
    simp only [List.map_cons, List.nodup_cons] at nodup
    rcases List.mem_cons.mp held with rfl | later
    · simp
    · have other : entry.1 ≠ id := by
        rintro rfl
        exact nodup.1 (List.mem_map.mpr ⟨_, later, rfl⟩)
      simp only [List.find?_cons, beq_eq_false_iff_ne.mpr other]
      exact ih nodup.2 later

-- A key stands for one entry, so dropping the key drops exactly that entry.
theorem perm_held (nodup : (entries.map Prod.fst).Nodup) (held : (id, op) ∈ entries) :
    entries.Perm ((id, op) :: entries.filter fun entry => entry.1 != id) := by
  induction entries with
  | nil => simp at held
  | cons entry rest ih =>
    simp only [List.map_cons, List.nodup_cons] at nodup
    rcases List.mem_cons.mp held with rfl | later
    · have kept : rest.filter (fun entry => entry.1 != id) = rest := by
        apply List.filter_eq_self.mpr
        intro other member
        simp only [bne_iff_ne]
        rintro rfl
        exact nodup.1 (List.mem_map.mpr ⟨_, member, rfl⟩)
      simp [kept]
    · have other : entry.1 ≠ id := by
        rintro rfl
        exact nodup.1 (List.mem_map.mpr ⟨_, later, rfl⟩)
      rw [List.filter_cons_of_pos (by simpa using other)]
      exact ((ih nodup.2 later).cons entry).trans (List.Perm.swap _ _ _)

end Entries

theorem Sound.find (sound : Sound ctrl) {id : Nat} {op : RevMemOp} (held : (id, op) ∈ ctrl.outstanding) :
    ctrl.find id = some op := by
  have nodup := sound.nodup
  rw [sound.keys] at nodup
  rw [Ctrl.find, find_held nodup held, Option.map_some]

theorem Sound.known (sound : Sound ctrl) {id : Nat} {op : RevMemOp} (held : (id, op) ∈ ctrl.outstanding) :
    id ∈ ctrl.requests := by
  rw [sound.keys]
  exact List.mem_map.mpr ⟨_, held, rfl⟩

theorem inFlight_eq (ctrl : Ctrl) (ptr : Nat) :
    inFlight ctrl ptr = decide (0 < ctrl.outstanding.countP fun entry => entry.2.ptr == ptr) := by
  rw [Bool.eq_iff_iff]
  simp [inFlight, List.countP_pos_iff]

theorem opening_cases (ctrl : Ctrl) : ∃ fences tick,
    Run.opening ctrl = ({ ctrl with numFence := fences }, tick) ∧ Opening ctrl fences tick := by
  unfold Run.opening
  by_cases fence : 0 < ctrl.numFence
  · rw [if_pos fence]
    by_cases waiting : ctrl.waits = true
    · rw [if_pos waiting]
      exact ⟨ctrl.numFence, none, rfl, .inl ⟨rfl, rfl⟩⟩
    · rw [if_neg waiting]
      refine ⟨ctrl.numFence - 1, some Tick.new, rfl, .inr ⟨rfl, .inr ⟨?_, ?_⟩⟩⟩
      · omega
      · simpa using waiting
  · rw [if_neg fence]
    have none : ctrl.numFence = 0 := by omega
    exact ⟨ctrl.numFence, some Tick.new, rfl, .inr ⟨rfl, .inl ⟨none, none⟩⟩⟩

theorem step_move {run after : Run} {event : Event} (sound : Sound run.ctrl) (legal : Legal run event)
    (stepped : run.step config event = .ok after) : Move config run event after := by
  cases event with
  | send call =>
    cases stepped
    cases accepts : call.accepts with
    | true =>
      obtain ⟨hazards, applied⟩ := Call.apply_accepted run.ctrl call accepts
      rw [applied]
      exact .accept call accepts hazards
    | false =>
      rw [Call.apply_refused run.ctrl call accepts]
      simpa using Move.refuse call accepts
  | respond id data =>
    have known := legal.2
    rw [sound.keys, List.mem_map] at known
    obtain ⟨⟨id, op⟩, held, rfl⟩ := known
    obtain ⟨request, sent, same⟩ := sound.wired _ held
    have found := sound.find held
    simp only [Run.step] at stepped
    cases responded : run.ctrl.respond config id data with
    | error fault =>
      rw [responded] at stepped
      cases stepped
    | ok ctrl =>
      rw [responded] at stepped
      cases stepped
      obtain ⟨created, answered⟩ := respond_ok found sent same responded
      have traced : (if ctrl.nextPtr = run.ctrl.nextPtr then []
          else (run.ctrl.find id).toList.map fun op => (op.ptr, run.ctrl.nextPtr)) =
          created.map fun write => (op.ptr, write.ptr) := by
        cases closes : closesAMO run.ctrl op with
        | false =>
          obtain ⟨rfl, _⟩ := answered.quiet closes
          rw [if_pos (by simpa using answered.nextPtr), List.map_nil]
        | true =>
          obtain ⟨_, target, host, _, rfl, _⟩ := answered.modifies closes
          have grown : ctrl.nextPtr ≠ run.ctrl.nextPtr := by
            rw [answered.nextPtr]
            simp
          rw [if_neg grown, found]
          rfl
      simp only [traced]
      exact .answer id data op created ctrl held answered
  | begin =>
    cases stepped
    obtain ⟨fences, tick, opened, opening⟩ := opening_cases run.ctrl
    rw [opened]
    exact .start fences tick opening
  | next =>
    obtain ⟨tick, running⟩ := Option.ne_none_iff_exists'.mp legal
    simp only [Run.step, running] at stepped
    cases ran : run.ctrl.processNextRqst config tick with
    | error fault =>
      rw [ran] at stepped
      cases stepped
    | ok result =>
      obtain ⟨last, next⟩ := result
      rw [ran] at stepped
      cases stepped
      rcases processNextRqst_cases sound.whole sound.fresh ran with
        ⟨rfl, _⟩ | ⟨front, op, back, taken, kind, rfl, ended⟩ |
          ⟨front, op, back, lane, taken, isLane, sends, _, rfl⟩
      · exact .idle _
      · rw [if_pos ended]
        exact .fence tick front op back running taken kind
      · exact .dispatch tick front op back lane _ running taken isLane sends

theorem Sound.queued_lt (sound : Sound ctrl) {op : RevMemOp} (member : op ∈ ctrl.rqstQ) :
    op.ptr < ctrl.nextPtr := by
  have placed := sound.placed op.ptr
  have positive : 0 < queued ctrl op.ptr := List.countP_pos_iff.mpr ⟨op, member, by simp⟩
  rw [places] at placed
  split at placed
  · assumption
  · omega

theorem Sound.held_lt (sound : Sound ctrl) {entry : Nat × RevMemOp} (held : entry ∈ ctrl.outstanding) :
    entry.2.ptr < ctrl.nextPtr ∧ queued ctrl entry.2.ptr = 0 ∧ ctrl.deleted.count entry.2.ptr = 0 := by
  have placed := sound.placed entry.2.ptr
  have flying : inFlight ctrl entry.2.ptr = true := List.any_eq_true.mpr ⟨entry, held, by simp⟩
  rw [places, flying, Bool.toNat_true] at placed
  split at placed
  · omega
  · omega

theorem Sound.deleted_lt (sound : Sound ctrl) {ptr : Nat} (ended : ptr ∈ ctrl.deleted) :
    ptr < ctrl.nextPtr := by
  have positive := List.count_pos_iff.mpr ended
  have placed := sound.placed ptr
  rw [places] at placed
  split at placed
  · assumption
  · omega

theorem Sound.deleted_nodup (sound : Sound ctrl) : ctrl.deleted.Nodup := by
  apply List.nodup_iff_count_le_one.mpr
  intro ptr
  have placed := sound.placed ptr
  rw [places] at placed
  split at placed
  · omega
  · omega

theorem Sound.deleted_of (sound : Sound ctrl) {ptr : Nat} (old : ptr < ctrl.nextPtr)
    (unqueued : ∀ op ∈ ctrl.rqstQ, op.ptr ≠ ptr)
    (grounded : ∀ entry ∈ ctrl.outstanding, entry.2.ptr ≠ ptr) : ptr ∈ ctrl.deleted := by
  have placed := sound.placed ptr
  have none : queued ctrl ptr = 0 := by
    rw [queued, List.countP_eq_zero]
    intro op member
    simpa using unqueued op member
  have landed : inFlight ctrl ptr = false := by
    rw [inFlight, List.any_eq_false]
    intro entry member
    simpa using grounded entry member
  rw [places, none, landed, if_pos old, Bool.toNat_false] at placed
  rw [← List.count_pos_iff]
  omega

theorem Sound.front_lt (sound : Sound ctrl) {front back : List RevMemOp} {op : RevMemOp}
    (queue : ctrl.rqstQ = front ++ op :: back) :
    (∀ earlier ∈ front, earlier.ptr < op.ptr) ∧ ∀ later ∈ back, op.ptr < later.ptr := by
  have sorted := sound.sorted
  rw [queue, List.pairwise_append, List.pairwise_cons] at sorted
  exact ⟨fun earlier member => sorted.2.2 earlier member op (by simp), sorted.2.1.1⟩

theorem Sound.taken_free (sound : Sound ctrl) {front back : List RevMemOp} {op : RevMemOp}
    (queue : ctrl.rqstQ = front ++ op :: back) :
    queued ctrl op.ptr = 1 ∧ inFlight ctrl op.ptr = false ∧ ctrl.deleted.count op.ptr = 0 := by
  have member : op ∈ ctrl.rqstQ := by simp [queue]
  have positive : 0 < queued ctrl op.ptr := List.countP_pos_iff.mpr ⟨op, member, by simp⟩
  have placed := sound.placed op.ptr
  rw [places, if_pos (sound.queued_lt member)] at placed
  refine ⟨by omega, ?_, by omega⟩
  cases flying : inFlight ctrl op.ptr with
  | false => rfl
  | true =>
    rw [flying, Bool.toNat_true] at placed
    omega

-- What enters the queue is new and whole.
theorem Sound.enqueue (sound : Sound ctrl) (op : RevMemOp) (table : List (Nat × Nat))
    (hazards : Nat → Bool) (new : op.ptr = ctrl.nextPtr) (whole : op.splitRqst = 1) :
    Sound
      { ctrl with
          rqstQ := ctrl.rqstQ ++ [op]
          nextPtr := ctrl.nextPtr + 1
          hazards := hazards
          amoTable := table } where
  sorted := by
    rw [List.pairwise_append]
    refine ⟨sound.sorted, List.pairwise_singleton _ _, ?_⟩
    intro earlier member later last
    rw [List.mem_singleton.mp last, new]
    exact sound.queued_lt member
  whole := by
    intro queued member
    rcases List.mem_append.mp member with old | last
    · exact sound.whole queued old
    · rw [List.mem_singleton.mp last]
      exact whole
  keys := sound.keys
  nodup := sound.nodup
  fresh := sound.fresh
  placed := by
    intro ptr
    have placed := sound.placed ptr
    simp only [places, queued, inFlight, List.countP_append, List.countP_singleton, new,
      beq_iff_eq] at placed ⊢
    split at placed <;> split <;> split <;> omega
  same := sound.same
  single := sound.single
  real := sound.real
  wired := sound.wired
  wireIds := sound.wireIds
  sent := by
    intro request member
    obtain ⟨old, unqueued⟩ := sound.sent request member
    refine ⟨Nat.lt_succ_of_lt old, ?_⟩
    have other : (op.ptr == request.op.ptr) = false := by
      rw [new, beq_eq_false_iff_ne]
      exact Nat.ne_of_gt old
    rw [queued] at unqueued ⊢
    simp [unqueued, other]

/-- The fields `Sound` speaks of. -/
theorem Sound.of_eq {other : Ctrl} (sound : Sound ctrl) (rqstQ : other.rqstQ = ctrl.rqstQ)
    (requests : other.requests = ctrl.requests) (outstanding : other.outstanding = ctrl.outstanding)
    (deleted : other.deleted = ctrl.deleted) (nextPtr : other.nextPtr = ctrl.nextPtr)
    (nextId : other.nextId = ctrl.nextId) (wire : other.wire = ctrl.wire) : Sound other := by
  obtain ⟨sorted, whole, keys, nodup, fresh, placed, same, single, real, wired, wireIds, sent⟩ := sound
  constructor
  all_goals
    simp only [places, queued, inFlight, Ctrl.getNumSplitRqsts, rqstQ, requests, outstanding, deleted,
      nextPtr, nextId, wire] at *
    assumption

section Settle
variable {id : Nat} {op : RevMemOp} (sound : Sound ctrl) (held : (id, op) ∈ ctrl.outstanding)
include sound held

theorem Sound.perm :
    ctrl.outstanding.Perm ((id, op) :: ctrl.outstanding.filter fun entry => entry.1 != id) := by
  apply perm_held _ held
  rw [← sound.keys]
  exact sound.nodup

theorem Sound.count_settle (ptr : Nat) :
    (ctrl.outstanding.countP fun entry => entry.2.ptr == ptr) =
      ((ctrl.outstanding.filter fun entry => entry.1 != id).countP fun entry => entry.2.ptr == ptr) +
        if op.ptr = ptr then 1 else 0 := by
  rw [(sound.perm held).countP_eq, List.countP_cons]
  simp

theorem Sound.isLast_iff : ctrl.isLast op = true ↔ ctrl.getNumSplitRqsts op = 1 := by
  constructor
  · intro last
    rw [Ctrl.isLast, Bool.or_eq_true, decide_eq_true_eq, beq_iff_eq] at last
    rcases last with small | one
    · exact sound.single _ held small
    · exact one
  · intro one
    simp [Ctrl.isLast, one]

-- The operation leaves the outstanding map with its last request.
theorem Sound.settle :
    Sound
      { ctrl with
          requests := ctrl.requests.erase id
          outstanding := ctrl.outstanding.filter fun entry => entry.1 != id
          deleted := ctrl.deleted ++ (if ctrl.isLast op then [op.ptr] else []) } where
  sorted := sound.sorted
  whole := sound.whole
  keys := by
    rw [sound.nodup.erase_eq_filter, sound.keys, List.filter_map]
    rfl
  nodup := sound.nodup.erase id
  fresh := by
    intro entry member
    exact sound.fresh entry (List.mem_of_mem_filter member)
  placed := by
    intro ptr
    have placed := sound.placed ptr
    have count := sound.count_settle held ptr
    have last := sound.isLast_iff held
    simp only [places, queued, inFlight_eq, List.count_append] at placed ⊢
    rw [← placed]
    by_cases mine : op.ptr = ptr
    · subst mine
      rw [if_pos rfl] at count
      rw [Ctrl.getNumSplitRqsts] at last
      by_cases ends : ctrl.isLast op = true
      · have one := last.mp ends
        have none : ((ctrl.outstanding.filter fun entry => entry.1 != id).countP
          fun entry => entry.2.ptr == op.ptr) = 0 := by omega
        rw [if_pos ends, one, none]
        simp
        omega
      · have more : (ctrl.outstanding.countP fun entry => entry.2.ptr == op.ptr) ≠ 1 :=
          fun one => ends (last.mpr one)
        rw [if_neg ends]
        simp only [List.count_nil, Nat.add_zero]
        rw [decide_eq_true (by omega), decide_eq_true (by omega)]
    · rw [if_neg mine, Nat.add_zero] at count
      have other : (if ctrl.isLast op = true then [op.ptr] else []).count ptr = 0 := by
        split
        · simp [mine]
        · rfl
      rw [count, other, Nat.add_zero]
  same := by
    intro one first other second
    exact sound.same one (List.mem_of_mem_filter first) other (List.mem_of_mem_filter second)
  single := by
    intro entry member small
    have before := sound.single entry (List.mem_of_mem_filter member) small
    have count := sound.count_settle held entry.2.ptr
    have positive : 0 < ((ctrl.outstanding.filter fun entry => entry.1 != id).countP
        fun other => other.2.ptr == entry.2.ptr) :=
      List.countP_pos_iff.mpr ⟨entry, member, by simp⟩
    simp only [Ctrl.getNumSplitRqsts] at before ⊢
    omega
  real := by
    intro entry member
    exact sound.real entry (List.mem_of_mem_filter member)
  wired := by
    intro entry member
    exact sound.wired entry (List.mem_of_mem_filter member)
  wireIds := sound.wireIds
  sent := sound.sent

theorem Sound.answered {data : Buffer} {created : List RevMemOp} {after : Ctrl}
    (answered : Answered config ctrl id data op created after) : Sound after := by
  have settled := sound.settle held
  cases closes : closesAMO ctrl op with
  | false =>
    obtain ⟨rfl, _⟩ := answered.quiet closes
    exact settled.of_eq (by simpa using answered.rqstQ) answered.requests answered.outstanding
      answered.deleted answered.nextPtr answered.nextId answered.wire
  | true =>
    obtain ⟨_, target, host, _, rfl, _⟩ := answered.modifies closes
    have larger := settled.enqueue (amoWrite op ctrl.nextPtr (amoBuffer config host target op))
      after.amoTable ctrl.hazards rfl rfl
    exact larger.of_eq answered.rqstQ answered.requests answered.outstanding
      answered.deleted answered.nextPtr answered.nextId answered.wire

end Settle

section Dispatched
variable {flags : BitVec 32} {id curByte : Nat} {op : RevMemOp} {pieces : List (Nat × Nat)}

theorem wireOf_mem {request : Request} (member : request ∈ wireOf op flags id curByte pieces) :
    request.op = op ∧ id ≤ request.id ∧ request.id < id + pieces.length := by
  induction pieces generalizing id curByte with
  | nil => simp [wireOf] at member
  | cons piece rest ih =>
    rw [wireOf, List.mem_cons] at member
    rcases member with rfl | later
    · simp
    · have bounds := ih later
      simp only [List.length_cons]
      exact ⟨bounds.1, by omega, by omega⟩

theorem wireOf_find {key : Nat} (low : id ≤ key) (high : key < id + pieces.length) :
    ∃ request, (wireOf op flags id curByte pieces).find? (fun request => request.id == key) =
      some request ∧ request.op = op := by
  induction pieces generalizing id curByte with
  | nil =>
    simp only [List.length_nil, Nat.add_zero] at high
    omega
  | cons piece rest ih =>
    simp only [List.length_cons] at high
    rw [wireOf, List.find?_cons]
    by_cases here : id = key
    · subst here
      simp
    · simp only [beq_eq_false_iff_ne.mpr here]
      exact ih (by omega) (by omega)

end Dispatched

section SentOff
variable {front back : List RevMemOp} {op : RevMemOp} {lane : Lane}

theorem mem_sentOff {entry : Nat × RevMemOp} :
    entry ∈ (sentOff config ctrl front op back lane).outstanding ↔ entry ∈ ctrl.outstanding ∨
      entry.2 = split config op ∧ ctrl.nextId ≤ entry.1 ∧
        entry.1 < ctrl.nextId + (piecesOf config op).length := by
  simp only [sentOff, dispatched, List.mem_append, List.mem_map, List.mem_range'_1]
  constructor
  · rintro (old | ⟨id, bounds, rfl⟩)
    · exact .inl old
    · exact .inr ⟨rfl, bounds⟩
  · rintro (old | ⟨new, bounds⟩)
    · exact .inl old
    · exact .inr ⟨entry.1, bounds, by rw [← new]⟩

theorem count_sentOff (ptr : Nat) :
    ((sentOff config ctrl front op back lane).outstanding.countP fun entry => entry.2.ptr == ptr) =
      (ctrl.outstanding.countP fun entry => entry.2.ptr == ptr) +
        if op.ptr = ptr then (piecesOf config op).length else 0 := by
  simp only [sentOff, dispatched, List.countP_append, List.countP_map]
  congr 1
  by_cases mine : op.ptr = ptr
  · rw [if_pos mine, List.countP_eq_length.mpr]
    · rw [List.length_range']
    · intro id member
      simpa [split] using mine
  · rw [if_neg mine, List.countP_eq_zero]
    intro id member
    simpa [split] using mine

end SentOff

section Taking
variable {tick : Tick} {front back : List RevMemOp} {op : RevMemOp}
  (sound : Sound ctrl) (queue : ctrl.rqstQ = front ++ op :: back)
include queue

theorem sublist_taken : (front ++ back).Sublist ctrl.rqstQ := by
  rw [queue]
  exact (List.Sublist.refl front).append (List.sublist_cons_self op back)

theorem queued_taken (ptr : Nat) :
    queued ctrl ptr =
      ((front ++ back).countP fun other => other.ptr == ptr) + if op.ptr = ptr then 1 else 0 := by
  rw [queued, queue]
  simp only [List.countP_append, List.countP_cons, beq_iff_eq]
  omega

include sound

theorem Sound.fenced : Sound (fenced ctrl front op back) where
  sorted := sound.sorted.sublist (sublist_taken queue)
  whole := fun other member => sound.whole other ((sublist_taken queue).subset member)
  keys := sound.keys
  nodup := sound.nodup
  fresh := sound.fresh
  placed := by
    intro ptr
    have placed := sound.placed ptr
    have count := queued_taken queue ptr
    change places _ ptr = if ptr < ctrl.nextPtr then 1 else 0
    simp only [places, queued, inFlight, MemCtrl.fenced, List.count_append, List.count_singleton,
      beq_iff_eq] at placed count ⊢
    omega
  same := sound.same
  single := sound.single
  real := sound.real
  wired := sound.wired
  wireIds := sound.wireIds
  sent := by
    intro request member
    obtain ⟨old, unqueued⟩ := sound.sent request member
    have count := queued_taken queue request.op.ptr
    refine ⟨old, ?_⟩
    simp only [queued, MemCtrl.fenced] at unqueued count ⊢
    omega

theorem Sound.sentOff {lane : Lane} (isLane : op.op.lane = some lane) :
    Sound (sentOff config ctrl front op back lane) := by
  obtain ⟨once, grounded, alive⟩ := sound.taken_free queue
  have some_piece : 0 < (piecesOf config op).length := List.length_pos_iff.mpr (piecesOf_ne_nil op)
  have old_count : (ctrl.outstanding.countP fun entry => entry.2.ptr == op.ptr) = 0 := by
    rw [inFlight_eq] at grounded
    simpa using grounded
  have free : ∀ entry ∈ ctrl.outstanding, entry.2.ptr ≠ op.ptr := by
    intro entry member
    simpa using List.countP_eq_zero.mp old_count entry member
  constructor
  case sorted => exact sound.sorted.sublist (sublist_taken queue)
  case whole => exact fun other member => sound.whole other ((sublist_taken queue).subset member)
  case keys => simp [MemCtrl.sentOff, dispatched, sound.keys, Function.comp_def]
  case nodup =>
    simp only [MemCtrl.sentOff, dispatched]
    rw [List.nodup_append]
    refine ⟨sound.nodup, List.nodup_range', ?_⟩
    intro old member new added
    rw [sound.keys, List.mem_map] at member
    obtain ⟨entry, held, rfl⟩ := member
    have bound := sound.fresh entry held
    rw [List.mem_range'_1] at added
    omega
  case fresh =>
    intro entry member
    change entry.1 < ctrl.nextId + (piecesOf config op).length
    rcases mem_sentOff.mp member with old | ⟨_, _, high⟩
    · have bound := sound.fresh entry old
      omega
    · exact high
  case placed =>
    intro ptr
    have placed := sound.placed ptr
    have count := queued_taken queue ptr
    have flight := inFlight_eq (MemCtrl.sentOff config ctrl front op back lane) ptr
    rw [count_sentOff] at flight
    change ((front ++ back).countP fun other => other.ptr == ptr) + (inFlight _ ptr).toNat +
      ctrl.deleted.count ptr = if ptr < ctrl.nextPtr then 1 else 0
    rw [← placed, places, count, flight]
    by_cases mine : op.ptr = ptr
    · subst mine
      rw [grounded, old_count, if_pos rfl, if_pos rfl, Nat.zero_add, decide_eq_true some_piece,
        Bool.toNat_true, Bool.toNat_false]
    · rw [if_neg mine, if_neg mine, inFlight_eq]
      rfl
  case same =>
    intro one first other second ptrs
    rcases mem_sentOff.mp first with old | ⟨new, _⟩
    · rcases mem_sentOff.mp second with old' | ⟨new', _⟩
      · exact sound.same one old other old' ptrs
      · rw [new'] at ptrs
        exact absurd ptrs (free one old)
    · rcases mem_sentOff.mp second with old' | ⟨new', _⟩
      · rw [new] at ptrs
        exact absurd ptrs.symm (free other old')
      · rw [new, new']
  case single =>
    intro entry member small
    rw [Ctrl.getNumSplitRqsts, count_sentOff]
    rcases mem_sentOff.mp member with old | ⟨new, _⟩
    · rw [if_neg (free entry old).symm]
      exact sound.single entry old small
    · rw [new] at small ⊢
      have one : (piecesOf config op).length ≤ 1 := small
      rw [show (split config op).ptr = op.ptr from rfl, old_count, if_pos rfl]
      omega
  case real =>
    intro entry member
    rcases mem_sentOff.mp member with old | ⟨new, _⟩
    · exact sound.real entry old
    · rw [new]
      intro kind
      rw [show op.op = .FENCE from kind] at isLane
      cases isLane
  case wired =>
    intro entry member
    simp only [MemCtrl.sentOff, dispatched, List.find?_append]
    rcases mem_sentOff.mp member with old | ⟨new, low, high⟩
    · obtain ⟨request, found, same⟩ := sound.wired entry old
      exact ⟨request, by rw [found, Option.some_or], same⟩
    · have missing : ctrl.wire.find? (fun request => request.id == entry.1) = none := by
        rw [List.find?_eq_none]
        intro request old
        have bound := sound.wireIds request old
        simp only [beq_iff_eq]
        omega
      rw [missing, Option.none_or, new]
      exact wireOf_find low high
  case wireIds =>
    intro request member
    simp only [MemCtrl.sentOff, dispatched, List.mem_append] at member ⊢
    rcases member with old | new
    · have bound := sound.wireIds request old
      omega
    · exact (wireOf_mem new).2.2
  case sent =>
    intro request member
    simp only [MemCtrl.sentOff, dispatched, List.mem_append, queued] at member ⊢
    have count := queued_taken queue request.op.ptr
    rcases member with old | new
    · obtain ⟨bound, unqueued⟩ := sound.sent request old
      refine ⟨bound, ?_⟩
      omega
    · rw [(wireOf_mem new).1, show (split config op).ptr = op.ptr from rfl] at count ⊢
      have member : op ∈ ctrl.rqstQ := by simp [queue]
      refine ⟨sound.queued_lt member, ?_⟩
      rw [if_pos rfl] at count
      omega

end Taking

theorem Move.sound {run after : Run} {event : Event} (sound : Sound run.ctrl)
    (move : Move config run event after) : Sound after.ctrl := by
  cases move with
  | refuse call refused => exact sound
  | accept call accepts hazards =>
    have whole : call.op.splitRqst = 1 := by cases call <;> rfl
    exact sound.enqueue { call.op with ptr := run.ctrl.nextPtr } _ hazards rfl whole
  | answer id data op created ctrl held answered => exact sound.answered held answered
  | start fences tick opening => exact sound.of_eq rfl rfl rfl rfl rfl rfl rfl
  | idle tick => exact sound
  | fence tick front op back running taken kind => exact sound.fenced taken.queue
  | dispatch tick front op back lane next running taken isLane sends =>
    exact sound.sentOff taken.queue isLane

theorem reached_sound {good : Run → Event → Prop} {run : Run} (reached : Reached config good run) :
    Sound run.ctrl := by
  induction reached with
  | start host hazards => exact sound_new host hazards
  | step before event legal meets stepped ih => exact (step_move ih legal stepped).sound ih

end Places
end RevCPU.MemCtrl
