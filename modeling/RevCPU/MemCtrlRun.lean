import RevCPU.MemCtrl
import Mathlib.Data.List.TakeWhile
/-!
Runs of the memory controller. A run is taken apart into the calls the harts make, the responses of
the memory, the start of a clock tick and the single turns of its loop; `clockTick_path` shows that
these turns are the ticks. Over any run every operation is queued, in flight or completed, and never
two of these.
-/
namespace RevCPU.MemCtrl
open Mem MemRefine RegFile Atomic

inductive Call where
  | sendFLUSHRequest (hart addr pAddr size : Nat) (inv : Bool) (flags : BitVec 32)
  | sendREADRequest (hart addr pAddr size target hazard : Nat) (flags : BitVec 32)
  | sendWRITERequest (hart addr pAddr size : Nat) (buffer : Buffer) (flags : BitVec 32)
  | sendAMORequest (hart addr pAddr size : Nat) (buffer : Buffer) (target hazard : Nat)
      (flags : BitVec 32)
  | sendREADLOCKRequest (hart addr pAddr size target hazard : Nat) (flags : BitVec 32)
  | sendWRITELOCKRequest (hart addr pAddr size : Nat) (buffer : Buffer) (flags : BitVec 32)
  | sendLOADLINKRequest (hart addr pAddr size : Nat) (flags : BitVec 32)
  | sendSTORECONDRequest (hart addr pAddr size : Nat) (buffer : Buffer) (flags : BitVec 32)
  | sendCUSTOMREADRequest (hart addr pAddr size target opc : Nat) (flags : BitVec 32)
  | sendCUSTOMWRITERequest (hart addr pAddr size : Nat) (buffer : Buffer) (opc : Nat)
      (flags : BitVec 32)
  | sendFENCE (hart : Nat)

namespace Call

def apply (ctrl : Ctrl) : Call → Ctrl
  | sendFLUSHRequest hart addr pAddr size inv flags =>
    ctrl.sendFLUSHRequest hart addr pAddr size inv flags
  | sendREADRequest hart addr pAddr size target hazard flags =>
    ctrl.sendREADRequest hart addr pAddr size target hazard flags
  | sendWRITERequest hart addr pAddr size buffer flags =>
    ctrl.sendWRITERequest hart addr pAddr size buffer flags
  | sendAMORequest hart addr pAddr size buffer target hazard flags =>
    ctrl.sendAMORequest hart addr pAddr size buffer target hazard flags
  | sendREADLOCKRequest hart addr pAddr size target hazard flags =>
    ctrl.sendREADLOCKRequest hart addr pAddr size target hazard flags
  | sendWRITELOCKRequest hart addr pAddr size buffer flags =>
    ctrl.sendWRITELOCKRequest hart addr pAddr size buffer flags
  | sendLOADLINKRequest hart addr pAddr size flags =>
    ctrl.sendLOADLINKRequest hart addr pAddr size flags
  | sendSTORECONDRequest hart addr pAddr size buffer flags =>
    ctrl.sendSTORECONDRequest hart addr pAddr size buffer flags
  | sendCUSTOMREADRequest hart addr pAddr size target opc flags =>
    ctrl.sendCUSTOMREADRequest hart addr pAddr size target opc flags
  | sendCUSTOMWRITERequest hart addr pAddr size buffer opc flags =>
    ctrl.sendCUSTOMWRITERequest hart addr pAddr size buffer opc flags
  | sendFENCE hart => ctrl.sendFENCE hart

def op : Call → RevMemOp
  | sendFLUSHRequest hart addr pAddr size inv flags =>
    { Ctrl.newOp hart addr pAddr size .FLUSH flags with inv := inv }
  | sendREADRequest hart addr pAddr size target hazard flags =>
    { Ctrl.newOp hart addr pAddr size .READ flags with target := some target, hazard := some hazard }
  | sendWRITERequest hart addr pAddr size buffer flags =>
    { Ctrl.newOp hart addr pAddr size .WRITE flags with membuf := buffer }
  | sendAMORequest hart addr pAddr size buffer target hazard flags =>
    { Ctrl.newOp hart addr pAddr size .READ flags with
        membuf := buffer, target := some target, hazard := some hazard }
  | sendREADLOCKRequest hart addr pAddr size target hazard flags =>
    { Ctrl.newOp hart addr pAddr size .READLOCK flags with
        target := some target, hazard := some hazard }
  | sendWRITELOCKRequest hart addr pAddr size buffer flags =>
    { Ctrl.newOp hart addr pAddr size .WRITEUNLOCK flags with membuf := buffer }
  | sendLOADLINKRequest hart addr pAddr size flags => Ctrl.newOp hart addr pAddr size .LOADLINK flags
  | sendSTORECONDRequest hart addr pAddr size buffer flags =>
    { Ctrl.newOp hart addr pAddr size .STORECOND flags with membuf := buffer }
  | sendCUSTOMREADRequest hart addr pAddr size target opc flags =>
    { Ctrl.newOp hart addr pAddr size .CUSTOM flags with target := some target, customOpc := opc }
  | sendCUSTOMWRITERequest hart addr pAddr size buffer opc flags =>
    { Ctrl.newOp hart addr pAddr size .CUSTOM flags with membuf := buffer, customOpc := opc }
  | sendFENCE hart => Ctrl.newOp hart 0 0 0 .FENCE 0

def isAMO : Call → Bool
  | sendAMORequest .. => true
  | _ => false

/-- A request of size 0 and an AMO without a function are dropped. -/
def accepts (call : Call) : Bool :=
  call.op.op == .FENCE || (call.op.size != 0 && (!call.isAMO || isAtomic call.op.flags))

def entry (call : Call) (ptr : Nat) : List (Nat × Nat) :=
  if call.isAMO then [(call.op.addr, ptr)] else []

theorem apply_accepted (ctrl : Ctrl) (call : Call) (accepted : call.accepts = true) :
    ∃ hazards, call.apply ctrl =
      { ctrl with
          rqstQ := ctrl.rqstQ ++ [{ call.op with ptr := ctrl.nextPtr }]
          nextPtr := ctrl.nextPtr + 1
          hazards := hazards
          amoTable := ctrl.amoTable ++ call.entry ctrl.nextPtr } := by
  cases call with
  | sendFENCE hart => exact ⟨ctrl.hazards, by simp [apply, Ctrl.sendFENCE, Ctrl.enqueue, op, entry, isAMO]⟩
  | sendAMORequest hart addr pAddr size buffer target hazard flags =>
    have ⟨positive, atomic⟩ : size ≠ 0 ∧ isAtomic flags = true := by
      simpa [accepts, op, isAMO, Ctrl.newOp] using accepted
    refine ⟨Function.update ctrl.hazards hazard true, ?_⟩
    simp [apply, Ctrl.sendAMORequest, positive, atomic, Ctrl.enqueue, Ctrl.setHazard, op, entry, isAMO,
      Ctrl.newOp]
  | _ =>
    simp only [accepts, op, isAMO, Ctrl.newOp, Bool.not_false, Bool.true_or, Bool.and_true,
      Bool.or_eq_true, bne_iff_ne, beq_iff_eq, reduceCtorEq, false_or] at accepted
    simp [apply, Ctrl.sendFLUSHRequest, Ctrl.sendREADRequest, Ctrl.sendWRITERequest,
      Ctrl.sendREADLOCKRequest, Ctrl.sendWRITELOCKRequest, Ctrl.sendLOADLINKRequest,
      Ctrl.sendSTORECONDRequest, Ctrl.sendCUSTOMREADRequest, Ctrl.sendCUSTOMWRITERequest, accepted,
      Ctrl.enqueue, Ctrl.setHazard, op, entry, isAMO]

theorem apply_refused (ctrl : Ctrl) (call : Call) (refused : call.accepts = false) :
    call.apply ctrl = ctrl := by
  cases call with
  | sendFENCE hart => cases refused
  | sendAMORequest hart addr pAddr size buffer target hazard flags =>
    by_cases zero : size = 0
    · simp [apply, Ctrl.sendAMORequest, zero]
    · have plain : isAtomic flags = false := by
        simpa [accepts, op, isAMO, Ctrl.newOp, zero] using refused
      simp [apply, Ctrl.sendAMORequest, plain]
  | _ =>
    simp only [accepts, op, isAMO, Ctrl.newOp, Bool.not_false, Bool.true_or, Bool.and_true,
      Bool.or_eq_false_iff, bne_eq_false_iff_eq, beq_eq_false_iff_ne] at refused
    simp [apply, Ctrl.sendFLUSHRequest, Ctrl.sendREADRequest, Ctrl.sendWRITERequest,
      Ctrl.sendREADLOCKRequest, Ctrl.sendWRITELOCKRequest, Ctrl.sendLOADLINKRequest,
      Ctrl.sendSTORECONDRequest, Ctrl.sendCUSTOMREADRequest, Ctrl.sendCUSTOMWRITERequest, refused.2]

end Call

/-- The handler the response to a request of this kind reaches. -/
def Ctrl.respond (config : Config) (ctrl : Ctrl) (id : Nat) (data : Buffer) : Except Fault Ctrl :=
  match ctrl.wire.find? fun request => request.id == id with
  | none => .error .unknownResp
  | some request =>
    match request.op.op with
    | .READ | .READLOCK | .LOADLINK =>
      ctrl.handleReadResp config ⟨id, request.addr, request.size, data⟩
    | .WRITE | .WRITEUNLOCK | .STORECOND =>
      ctrl.handleWriteResp ⟨id, request.addr, request.size, data⟩
    | .FLUSH => ctrl.handleFlushResp ⟨id, request.addr, request.size, data⟩
    | .CUSTOM => ctrl.handleCustomResp ⟨id, request.addr, request.size, data⟩
    | .FENCE => .error .unknownResp

/-- `tick` is there while the loop of clockTick runs. `accepted` are the calls that left an operation,
with it, and `writes` the READ and the WRITE of each AMO that came so far. -/
structure Run where
  ctrl : Ctrl
  tick : Option Tick
  accepted : List (Nat × Call)
  writes : List (Nat × Nat)

inductive Event where
  | send (call : Call)
  | respond (id : Nat) (data : Buffer)
  | begin
  | next

namespace Run

/-- The test for a fence at the head of clockTick. -/
def opening (ctrl : Ctrl) : Ctrl × Option Tick :=
  if 0 < ctrl.numFence then
    if ctrl.waits then (ctrl, none)
    else ({ ctrl with numFence := ctrl.numFence - 1 }, some Tick.new)
  else (ctrl, some Tick.new)

-- A response that enlarges the set of operations is the last one of an AMO's READ.
def step (config : Config) (run : Run) : Event → Except Fault Run
  | .send call =>
    .ok { run with
      ctrl := call.apply run.ctrl
      accepted := run.accepted ++ (if call.accepts then [(run.ctrl.nextPtr, call)] else []) }
  | .respond id data =>
    match run.ctrl.respond config id data with
    | .error fault => .error fault
    | .ok ctrl =>
      .ok { run with
        ctrl := ctrl
        writes := run.writes ++
          (if ctrl.nextPtr = run.ctrl.nextPtr then []
            else (run.ctrl.find id).toList.map fun op => (op.ptr, run.ctrl.nextPtr)) }
  | .begin => .ok { run with ctrl := (opening run.ctrl).1, tick := (opening run.ctrl).2 }
  | .next =>
    match run.tick with
    | none => .ok run
    | some tick =>
      match run.ctrl.processNextRqst config tick with
      | .error fault => .error fault
      | .ok (tick, ctrl) =>
        .ok { run with ctrl := ctrl, tick := if tick.ops = config.maxOps then none else some tick }

end Run

/-- Nothing happens during a tick but its own turns, and only an outstanding request is answered. -/
def Legal (run : Run) : Event → Prop
  | .send _ => run.tick = none
  | .respond id _ => run.tick = none ∧ id ∈ run.ctrl.requests
  | .begin => run.tick = none
  | .next => run.tick ≠ none

/-- The runs whose steps all meet a condition. -/
inductive Reached (config : Config) (good : Run → Event → Prop) : Run → Prop
  | start (host : Nat → Byte) (hazards : Nat → Bool) :
    Reached config good ⟨Ctrl.new host hazards, none, [], []⟩
  | step {run after : Run} (before : Reached config good run) (event : Event)
    (legal : Legal run event) (meets : good run event) (stepped : run.step config event = .ok after) :
    Reached config good after

theorem Reached.mono {config : Config} {good weaker : Run → Event → Prop} {run : Run}
    (implies : ∀ run event, good run event → weaker run event) (reached : Reached config good run) :
    Reached config weaker run := by
  induction reached with
  | start host hazards => exact .start host hazards
  | step before event legal meets stepped ih => exact .step ih event legal (implies _ _ meets) stepped

section Follow
variable {config : Config} {good : Run → Event → Prop}

def isLegal (run : Run) : Event → Bool
  | .send _ => run.tick.isNone
  | .respond id _ => run.tick.isNone && decide (id ∈ run.ctrl.requests)
  | .begin => run.tick.isNone
  | .next => run.tick.isSome

theorem isLegal_iff (run : Run) (event : Event) : isLegal run event = true ↔ Legal run event := by
  cases event with
  | respond id data => simp [isLegal, Legal]
  | send call => simp [isLegal, Legal]
  | begin => simp [isLegal, Legal]
  | next => simp [isLegal, Legal, Option.isSome_iff_ne_none]

/-- The run through a list of events, as far as they are possible and meet a test. -/
def follow (config : Config) (test : Run → Event → Bool) : Run → List Event → Option Run
  | run, [] => some run
  | run, event :: rest =>
    if isLegal run event && test run event then
      match run.step config event with
      | .error _ => none
      | .ok after => follow config test after rest
    else none

theorem follow_reached {test : Run → Event → Bool} {run after : Run} {events : List Event}
    (sound : ∀ run event, test run event = true → good run event) (reached : Reached config good run)
    (followed : follow config test run events = some after) : Reached config good after := by
  induction events generalizing run with
  | nil =>
    cases followed
    exact reached
  | cons event rest ih =>
    rw [follow] at followed
    split at followed
    · rename_i possible
      rw [Bool.and_eq_true, isLegal_iff] at possible
      split at followed
      · cases followed
      · rename_i next stepped
        exact ih (.step reached event possible.1 (sound run event possible.2) stepped) followed
    · cases followed

/-- The run through a list of events from the start, with what is to be seen of its end. -/
theorem follow_seen {test : Run → Event → Bool} {β : Type} {outcome : β} (observe : Run → β)
    {host : Nat → Byte} {hazards : Nat → Bool} {events : List Event}
    (sound : ∀ run event, test run event = true → good run event)
    (seen : (follow config test ⟨Ctrl.new host hazards, none, [], []⟩ events).map observe =
      some outcome) : ∃ run, Reached config good run ∧ observe run = outcome := by
  obtain ⟨run, followed, observed⟩ := Option.map_eq_some_iff.mp seen
  exact ⟨run, follow_reached sound (.start host hazards) followed, observed⟩

/-- One request of each kind and two in all a tick, no cache. -/
def narrow : Config := ⟨0, fun _ => 1, 2, fun _ _ => 0⟩

end Follow

section Dispatch
variable {config : Config} {ctrl : Ctrl}

/-- The requests of one operation as they appear on the interface. -/
def wireOf (op : RevMemOp) (flags : BitVec 32) : Nat → Nat → List (Nat × Nat) → List Request
  | _, _, [] => []
  | id, curByte, (addr, size) :: rest =>
    ⟨id, op, addr, size, fun index => op.membuf (curByte + index), flags⟩ ::
      wireOf op flags (id + 1) (curByte + size) rest

/-- The controller after all requests of an operation are sent. -/
def dispatched (ctrl : Ctrl) (op : RevMemOp) (lane : Lane) (flags : BitVec 32) (curByte : Nat)
    (pieces : List (Nat × Nat)) : Ctrl :=
  { ctrl with
      requests := ctrl.requests ++ List.range' ctrl.nextId pieces.length
      outstanding := ctrl.outstanding ++
        (List.range' ctrl.nextId pieces.length).map fun id => (id, op)
      wire := ctrl.wire ++ wireOf op flags ctrl.nextId curByte pieces
      nextId := ctrl.nextId + pieces.length
      num := Function.update ctrl.num lane (ctrl.num lane + BitVec.ofNat 64 pieces.length) }

-- A new id is not in the map yet, so the assignment appends.
theorem issueAll_eq (fresh : ∀ entry ∈ ctrl.outstanding, entry.1 < ctrl.nextId) (op : RevMemOp)
    (lane : Lane) (flags : BitVec 32) (curByte : Nat) (pieces : List (Nat × Nat)) :
    ctrl.issueAll op lane flags curByte pieces = dispatched ctrl op lane flags curByte pieces := by
  induction pieces generalizing ctrl curByte with
  | nil => simp [Ctrl.issueAll, dispatched, wireOf]
  | cons piece rest ih =>
    obtain ⟨addr, size⟩ := piece
    have kept : ctrl.outstanding.filter (fun entry => entry.1 != ctrl.nextId) = ctrl.outstanding := by
      apply List.filter_eq_self.mpr
      intro entry member
      simpa using Nat.ne_of_lt (fresh entry member)
    rw [Ctrl.issueAll, ih]
    · simp only [dispatched, Ctrl.issue, Ctrl.bump, kept, List.length_cons, List.range'_succ,
        List.map_cons, wireOf, List.append_assoc, List.singleton_append, Function.update_self,
        Function.update_idem, Nat.add_assoc, Nat.add_comm 1]
      congr 2
      rw [BitVec.add_assoc]
      congr 1
      rw [BitVec.add_comm]
      apply BitVec.eq_of_toNat_eq
      simp [BitVec.toNat_add]
    · intro entry member
      simp only [Ctrl.issue, Ctrl.bump, kept] at member ⊢
      rcases List.mem_append.mp member with old | last
      · exact Nat.lt_succ_of_lt (fresh entry old)
      · rw [List.mem_singleton.mp last]
        exact Nat.lt_succ_self _

theorem length_tailPieces (count newBase bytesLeft : Nat) :
    (tailPieces config count newBase bytesLeft).length = count := by
  induction count generalizing newBase bytesLeft with
  | zero => rfl
  | succ count ih => simp [tailPieces, ih]

theorem getNumCacheLines_pos (addr size : Nat) : 0 < getNumCacheLines config addr size := by
  unfold getNumCacheLines
  split
  · decide
  · rename_i cached
    have positive : 0 < config.lineSize := by
      apply Nat.pos_of_ne_zero
      simpa [hasCache] using cached
    split
    · split
      · decide
      · split
        · decide
        · rename_i large
          have whole : 0 < size / config.lineSize := Nat.div_pos (Nat.not_lt.mp large) positive
          omega
    · split
      · decide
      · exact Nat.succ_pos _

theorem length_cachePieces (addr size : Nat) :
    (cachePieces config addr size).length = getNumCacheLines config addr size := by
  have positive : 0 < getNumCacheLines config addr size := getNumCacheLines_pos addr size
  simp only [cachePieces, List.length_cons, length_tailPieces]
  omega

/-- The requests an operation is sent as: one for each line, or a single one. -/
def piecesOf (config : Config) (op : RevMemOp) : List (Nat × Nat) :=
  if hasCache config ∧ op.isCacheable then cachePieces config op.addr op.size else [(op.addr, op.size)]

def flagsOf (config : Config) (op : RevMemOp) : BitVec 32 :=
  if hasCache config then op.getStdFlags else op.getNonCacheFlags

theorem piecesOf_ne_nil (op : RevMemOp) : piecesOf config op ≠ [] := by
  unfold piecesOf
  split
  · simp [cachePieces]
  · simp

/-- The operation as it is stored with its requests. -/
def split (config : Config) (op : RevMemOp) : RevMemOp :=
  { op with splitRqst := (piecesOf config op).length }

-- Without the slots for every line nothing is sent.
theorem buildStandardMemRqst_cases {op : RevMemOp} {lane : Lane} (isLane : op.op.lane = some lane)
    (whole : op.splitRqst = 1) (fresh : ∀ entry ∈ ctrl.outstanding, entry.1 < ctrl.nextId) :
    ctrl.buildStandardMemRqst config op = some (false, ctrl) ∨
      ctrl.buildStandardMemRqst config op = some (true,
        dispatched ctrl (split config op) lane (flagsOf config op) 0 (piecesOf config op)) := by
  have raw : ∀ flags, ctrl.issue op lane flags op.addr op.size op.membuf =
      dispatched ctrl op lane flags 0 [(op.addr, op.size)] := by
    intro flags
    rw [← issueAll_eq fresh]
    simp [Ctrl.issueAll]
  have same : ¬ (hasCache config = true ∧ op.isCacheable = true) → split config op = op := by
    intro uncached
    unfold split piecesOf
    rw [if_neg uncached, List.length_singleton, ← whole]
  unfold Ctrl.buildStandardMemRqst
  by_cases cached : hasCache config = true ∧ op.isCacheable = true
  · rw [if_pos cached]
    simp only [Ctrl.buildCacheMemRqst, isLane]
    by_cases full : (BitVec.ofNat 64 (config.max lane) - ctrl.num lane).toNat <
        getNumCacheLines config op.addr op.size
    · rw [if_pos full]
      exact .inl rfl
    · rw [if_neg full, issueAll_eq fresh]
      have pieces : piecesOf config op = cachePieces config op.addr op.size := if_pos cached
      have flags : flagsOf config op = op.getStdFlags := if_pos cached.1
      right
      rw [split, pieces, flags, length_cachePieces]
  · right
    rw [if_neg cached, same cached]
    simp only [Ctrl.buildRawMemRqst, isLane, Option.map_some, raw, piecesOf, flagsOf, if_neg cached]
    by_cases layered : hasCache config = true
    · have uncached : op.isCacheable = false := by
        cases cacheable : op.isCacheable with
        | false => rfl
        | true => exact absurd ⟨layered, cacheable⟩ cached
      rw [if_pos ⟨layered, uncached⟩, if_pos layered]
    · rw [if_neg fun both => layered both.1, if_neg layered]

/-- A turn of the loop takes an operation out of the queue, from behind the ones that are saturated. -/
structure Taken (config : Config) (tick : Tick) (ctrl : Ctrl) (front : List RevMemOp) (op : RevMemOp)
    (back : List RevMemOp) : Prop where
  queue : ctrl.rqstQ = front ++ op :: back
  passed : ∀ earlier ∈ front, tick.avail config earlier = false
  avail : tick.avail config op = true

/-- Neither an AMO in front nor the slots for its lines hold the operation back. -/
def Sends (config : Config) (ctrl : Ctrl) (front : List RevMemOp) (op : RevMemOp) : Prop :=
  ctrl.isPendingAMO front op = false ∧ ∃ sent, ctrl.buildStandardMemRqst config op = some (true, sent)

def fenced (ctrl : Ctrl) (front : List RevMemOp) (op : RevMemOp) (back : List RevMemOp) : Ctrl :=
  { ctrl with
      rqstQ := front ++ back
      numFence := ctrl.numFence + 1
      deleted := ctrl.deleted ++ [op.ptr] }

theorem span_taken {tick : Tick} {front back : List RevMemOp} {op : RevMemOp}
    (scanned : (ctrl.rqstQ.span fun op => !tick.avail config op) = (front, op :: back)) :
    Taken config tick ctrl front op back := by
  rw [List.span_eq_takeWhile_dropWhile, Prod.mk.injEq] at scanned
  constructor
  · rw [← scanned.1, ← scanned.2, List.takeWhile_append_dropWhile]
  · intro earlier member
    rw [← scanned.1] at member
    simpa using List.mem_takeWhile_imp member
  · have head := List.head?_dropWhile_not (fun op => !tick.avail config op) ctrl.rqstQ
    rw [scanned.2] at head
    simpa using head

theorem processNextRqst_cases {tick last : Tick} {next : Ctrl}
    (whole : ∀ op ∈ ctrl.rqstQ, op.splitRqst = 1)
    (fresh : ∀ entry ∈ ctrl.outstanding, entry.1 < ctrl.nextId)
    (ran : ctrl.processNextRqst config tick = .ok (last, next)) :
    (next = ctrl ∧ last.ops = config.maxOps) ∨
    (∃ front op back, Taken config tick ctrl front op back ∧ op.op = .FENCE ∧
      next = fenced ctrl front op back ∧ last.ops = config.maxOps) ∨
    ∃ front op back lane, Taken config tick ctrl front op back ∧ op.op.lane = some lane ∧
      Sends config ctrl front op ∧ last = tick.take op ∧
      next = { dispatched ctrl (split config op) lane (flagsOf config op) 0 (piecesOf config op) with
        rqstQ := front ++ back } := by
  unfold Ctrl.processNextRqst at ran
  split at ran
  · cases ran
    exact .inl ⟨rfl, rfl⟩
  · rename_i front op back scanned
    have taken := span_taken scanned
    simp only at ran
    split at ran
    · rename_i fence
      cases ran
      exact .inr (.inl ⟨front, op, back, taken, fence, rfl, rfl⟩)
    · rename_i notFence
      split at ran
      · cases ran
        exact .inl ⟨rfl, rfl⟩
      · rename_i clear
        have isLane : ∃ lane, op.op.lane = some lane := by
          cases kind : op.op <;> first | exact absurd kind notFence | exact ⟨_, rfl⟩
        obtain ⟨lane, isLane⟩ := isLane
        have queued : op ∈ ctrl.rqstQ := by
          rw [taken.queue]
          simp
        rcases buildStandardMemRqst_cases isLane (whole op queued) fresh with refused | sent
        · rw [refused] at ran
          cases ran
          exact .inl ⟨rfl, rfl⟩
        · rw [sent] at ran
          cases ran
          have sends : Sends config ctrl front op := ⟨by simpa using clear, _, sent⟩
          exact .inr (.inr ⟨front, op, back, lane, taken, isLane, sends, rfl, rfl⟩)

-- The loop goes on only after a request left the queue, so the fuel of clockTick lasts.
theorem processNextRqst_shrinks {tick last : Tick} {next : Ctrl}
    (ran : ctrl.processNextRqst config tick = .ok (last, next)) :
    last.ops = config.maxOps ∨ next.rqstQ.length < ctrl.rqstQ.length := by
  unfold Ctrl.processNextRqst at ran
  split at ran
  · cases ran
    exact .inl rfl
  · rename_i front op back scanned
    have queue := (span_taken scanned).queue
    simp only at ran
    split at ran
    · cases ran
      exact .inl rfl
    · split at ran
      · cases ran
        exact .inl rfl
      · split at ran
        · cases ran
        · cases ran
          exact .inl rfl
        · cases ran
          right
          simp [queue]

/-- A turn of the loop while it runs. -/
def Turn (config : Config) (run after : Run) : Prop :=
  Legal run .next ∧ run.step config .next = .ok after

theorem processLoop_path {fuel : Nat} {tick : Tick} {last : Ctrl} {run : Run}
    (enough : ctrl.rqstQ.length < fuel) (looped : ctrl.processLoop config fuel tick = .ok last) :
    Relation.ReflTransGen (Turn config) { run with ctrl := ctrl, tick := some tick }
      { run with ctrl := last, tick := none } := by
  induction fuel generalizing tick ctrl with
  | zero => exact absurd enough (Nat.not_lt_zero _)
  | succ fuel ih =>
    rw [Ctrl.processLoop] at looped
    cases ran : ctrl.processNextRqst config tick with
    | error fault =>
      rw [ran] at looped
      cases looped
    | ok result =>
      obtain ⟨nextTick, next⟩ := result
      simp only [ran] at looped
      have turn : Turn config { run with ctrl := ctrl, tick := some tick }
          { run with
              ctrl := next, tick := if nextTick.ops = config.maxOps then none else some nextTick } := by
        constructor
        · simp [Legal]
        · simp only [Run.step, ran]
      by_cases done : nextTick.ops = config.maxOps
      · rw [if_pos done] at looped turn
        cases looped
        exact .single turn
      · rw [if_neg done] at looped turn
        apply Relation.ReflTransGen.head turn
        apply ih _ looped
        rcases processNextRqst_shrinks ran with saturated | shorter
        · exact absurd saturated done
        · omega

theorem clockTick_path {last : Ctrl} {run : Run} (ticked : run.ctrl.clockTick config = .ok last) :
    ∃ opened, run.step config .begin = .ok opened ∧
      Relation.ReflTransGen (Turn config) opened { run with ctrl := last, tick := none } := by
  refine ⟨_, rfl, ?_⟩
  unfold Ctrl.clockTick at ticked
  unfold Run.opening
  by_cases fence : 0 < run.ctrl.numFence
  · rw [if_pos fence] at ticked ⊢
    by_cases waiting : run.ctrl.waits = true
    · rw [if_pos waiting] at ticked ⊢
      cases ticked
      exact .refl
    · rw [if_neg waiting] at ticked ⊢
      exact processLoop_path (Nat.lt_succ_self _) ticked
  · rw [if_neg fence] at ticked ⊢
    exact processLoop_path (Nat.lt_succ_self _) ticked

end Dispatch

section Answer
variable {config : Config} {ctrl after : Ctrl} {op : RevMemOp}

/-- The handler's lane: three kinds of request share each of the first two. -/
def answerLane : MemOp → Lane
  | .READ | .READLOCK | .LOADLINK => .read
  | .WRITE | .WRITEUNLOCK | .STORECOND => .write
  | .FLUSH => .flush
  | .CUSTOM | .FENCE => .custom

/-- The WRITE performAMO enqueues for a READ. -/
def amoWrite (op : RevMemOp) (ptr : Nat) (buffer : Buffer) : RevMemOp :=
  { Ctrl.newOp op.hart op.addr op.pAddr op.size .WRITE op.flags with
      ptr := ptr, membuf := buffer, hazard := op.hazard }

/-- What the WRITE carries: the bytes of the target after the extension and the MODIFY. -/
def amoBuffer (config : Config) (host : Nat → Byte) (target : Nat) (op : RevMemOp) : Buffer :=
  fun index => modifyTarget config (extendTarget host target op.flags) target op (target + index)

theorem copyTarget_ok {start count : Nat} {data : Buffer}
    (copied : ctrl.copyTarget op start count data = .ok after) :
    ∃ host, after = { ctrl with host := host } ∧ ∀ target, op.target = some target →
      host = flatStore ctrl.host (target + start) count data := by
  unfold Ctrl.copyTarget at copied
  split at copied
  · rename_i missing
    split at copied
    · cases copied
      exact ⟨ctrl.host, rfl, fun target found => by simp [missing] at found⟩
    · cases copied
  · rename_i target found
    cases copied
    refine ⟨_, rfl, ?_⟩
    intro other same
    rw [found] at same
    cases same
    rfl

theorem handleFlagResp_ok (extended : ctrl.handleFlagResp op = .ok after) :
    ∃ host, after = { ctrl with host := host } ∧ ∀ target, op.target = some target →
      host = extendTarget ctrl.host target op.flags := by
  unfold Ctrl.handleFlagResp at extended
  split at extended
  · rename_i missing
    split at extended
    · cases extended
    · cases extended
      exact ⟨ctrl.host, rfl, fun target found => by simp [missing] at found⟩
  · rename_i target found
    cases extended
    refine ⟨_, rfl, ?_⟩
    intro other same
    rw [found] at same
    cases same
    rfl

theorem clearHazard_ok {strict : Bool} (cleared : ctrl.clearHazard op strict = .ok after) :
    ∃ hazards, after = { ctrl with hazards := hazards } := by
  unfold Ctrl.clearHazard at cleared
  split at cleared
  · split at cleared
    · cases cleared
    · cases cleared
      exact ⟨ctrl.hazards, rfl⟩
  · cases cleared
    exact ⟨_, rfl⟩

theorem performAMO_ok (performed : ctrl.performAMO config op = .ok after) :
    ∃ target host hazards, op.target = some target ∧ after =
      { ctrl with
          host := host
          hazards := hazards
          rqstQ := ctrl.rqstQ ++ [amoWrite op ctrl.nextPtr
            fun index => modifyTarget config ctrl.host target op (target + index)]
          nextPtr := ctrl.nextPtr + 1
          amoTable := ctrl.amoTable ++ [(op.addr, ctrl.nextPtr)] } := by
  unfold Ctrl.performAMO at performed
  split at performed
  · cases performed
  · cases performed
  · rename_i target hazard found awaited
    cases performed
    refine ⟨target, modifyTarget config ctrl.host target op,
      Function.update ctrl.hazards hazard true, found, ?_⟩
    simp only [Ctrl.enqueue, Ctrl.setHazard, amoWrite, awaited]

/-- The table after the MODIFY of an operation. -/
def amoEntries (ctrl : Ctrl) (op : RevMemOp) : List (Nat × Nat) :=
  (ctrl.amoTable ++ [(op.addr, ctrl.nextPtr)]).eraseP (Ctrl.ownEntry op)

theorem finishRead_ok (finished : ctrl.finishRead config op = .ok after) :
    (ctrl.amoTable.any (Ctrl.ownEntry op) = false ∧ ∃ host hazards, after =
      { ctrl with host := host, hazards := hazards, deleted := ctrl.deleted ++ [op.ptr] }) ∨
    (ctrl.amoTable.any (Ctrl.ownEntry op) = true ∧ ∃ target host hazards,
      op.target = some target ∧ after =
        { ctrl with
            host := host
            hazards := hazards
            deleted := ctrl.deleted ++ [op.ptr]
            rqstQ := ctrl.rqstQ ++
              [amoWrite op ctrl.nextPtr (amoBuffer config ctrl.host target op)]
            nextPtr := ctrl.nextPtr + 1
            amoTable := amoEntries ctrl op }) := by
  unfold Ctrl.finishRead at finished
  split at finished
  · cases finished
  · rename_i extended flagged
    obtain ⟨host, rfl, extension⟩ := handleFlagResp_ok flagged
    by_cases own : ctrl.amoTable.any (Ctrl.ownEntry op) = true
    · right
      simp only [own, if_true, Ctrl.handleAMO] at finished
      split at finished
      · cases finished
      · rename_i modified modifies
        split at modifies
        · cases modifies
        · rename_i performed performs
          obtain ⟨target, stored, hazards, found, rfl⟩ := performAMO_ok performs
          cases modifies
          split at finished
          · cases finished
          · rename_i cleared clears
            obtain ⟨hazards, rfl⟩ := clearHazard_ok clears
            cases finished
            have moved := extension target found
            subst moved
            exact ⟨own, target, stored, hazards, found, rfl⟩
    · left
      rw [if_neg own] at finished
      simp only at finished
      split at finished
      · cases finished
      · rename_i cleared clears
        obtain ⟨hazards, rfl⟩ := clearHazard_ok clears
        cases finished
        exact ⟨by simpa using own, host, hazards, rfl⟩

/-- The last response of the READ of an AMO. -/
def closesAMO (ctrl : Ctrl) (op : RevMemOp) : Bool :=
  ctrl.isLast op && answerLane op.op == .read && ctrl.amoTable.any (Ctrl.ownEntry op)

/-- What a response to a request of `op` does: `created` are the operations it enqueues. -/
structure Answered (config : Config) (ctrl : Ctrl) (id : Nat) (data : Buffer) (op : RevMemOp)
    (created : List RevMemOp) (after : Ctrl) : Prop where
  requests : after.requests = ctrl.requests.erase id
  outstanding : after.outstanding = ctrl.outstanding.filter fun entry => entry.1 != id
  deleted : after.deleted = ctrl.deleted ++ (if ctrl.isLast op then [op.ptr] else [])
  rqstQ : after.rqstQ = ctrl.rqstQ ++ created
  nextPtr : after.nextPtr = ctrl.nextPtr + created.length
  nextId : after.nextId = ctrl.nextId
  wire : after.wire = ctrl.wire
  numFence : after.numFence = ctrl.numFence
  num : after.num =
    Function.update ctrl.num (answerLane op.op) (ctrl.num (answerLane op.op) + (-1))
  quiet : closesAMO ctrl op = false → created = [] ∧
    (after.amoTable = ctrl.amoTable ∨ answerLane op.op = .write ∧
      after.amoTable = ctrl.amoTable.filter fun entry => !Ctrl.ownEntry op entry)
  modifies : closesAMO ctrl op = true → after.amoTable = amoEntries ctrl op ∧
    ∃ target host, op.target = some target ∧
      created = [amoWrite op ctrl.nextPtr (amoBuffer config host target op)] ∧
      (op.splitRqst ≤ 1 → host = flatStore ctrl.host target op.size data)

theorem created_ptr {id : Nat} {data : Buffer} {created : List RevMemOp}
    (answered : Answered config ctrl id data op created after) :
    ∀ write ∈ created, write.ptr = ctrl.nextPtr := by
  intro write member
  cases closes : closesAMO ctrl op with
  | false =>
    rw [(answered.quiet closes).1] at member
    cases member
  | true =>
    obtain ⟨_, target, host, _, rfl, _⟩ := answered.modifies closes
    rw [List.mem_singleton.mp member]
    rfl

theorem claim_ok {id : Nat} {claimed : RevMemOp × Ctrl} (opened : ctrl.claim id = .ok claimed) :
    id ∈ ctrl.requests ∧ ctrl.find id = some claimed.1 ∧
      claimed.2 = { ctrl with requests := ctrl.requests.erase id } := by
  unfold Ctrl.claim at opened
  split at opened
  · rename_i known
    split at opened
    · cases opened
    · rename_i op found
      cases opened
      exact ⟨known, found, rfl⟩
  · cases opened

theorem answered_quiet (config : Config) (ev : Response) (host : Nat → Byte) (hazards : Nat → Bool)
    {table : List (Nat × Nat)} {deleted : List Nat} (quiet : closesAMO ctrl op = false)
    (kept : table = ctrl.amoTable ∨ answerLane op.op = .write ∧
      table = ctrl.amoTable.filter fun entry => !Ctrl.ownEntry op entry)
    (closed : deleted = ctrl.deleted ++ (if ctrl.isLast op then [op.ptr] else [])) :
    Answered config ctrl ev.id ev.data op []
      (Ctrl.settle
        { ctrl with
            requests := ctrl.requests.erase ev.id
            host := host
            hazards := hazards
            amoTable := table
            deleted := deleted }
        ev.id (answerLane op.op)) where
  requests := rfl
  outstanding := rfl
  deleted := closed
  rqstQ := (List.append_nil _).symm
  nextPtr := rfl
  nextId := rfl
  wire := rfl
  numFence := rfl
  num := rfl
  quiet := fun _ => ⟨rfl, kept⟩
  modifies := fun closes => by simp [quiet] at closes

section Handlers
variable {ev : Response} (found : ctrl.find ev.id = some op)
include found

theorem handleReadResp_ok (reads : answerLane op.op = .read)
    (handled : ctrl.handleReadResp config ev = .ok after) :
    ∃ created, Answered config ctrl ev.id ev.data op created after := by
  unfold Ctrl.handleReadResp at handled
  split at handled
  · cases handled
  · rename_i claimed opened claims
    obtain ⟨known, same, rfl⟩ := claim_ok claims
    rw [found] at same
    obtain rfl := Option.some.inj same
    simp only at handled
    split at handled
    · cases handled
    · rename_i copied copies
      obtain ⟨host, rfl, stored⟩ := copyTarget_ok copies
      split at handled
      · cases handled
      · rename_i finished finishes
        cases handled
        rw [← reads]
        change (if ctrl.isLast op = true then Ctrl.finishRead config _ op else .ok _) = _ at finishes
        by_cases last : ctrl.isLast op = true
        · rw [if_pos last] at finishes
          rcases finishRead_ok finishes with
            ⟨plain, host, hazards, rfl⟩ | ⟨own, target, moved, hazards, aimed, rfl⟩
          · have quiet : closesAMO ctrl op = false := by
              rw [closesAMO, show ctrl.amoTable.any (Ctrl.ownEntry op) = false from plain,
                Bool.and_false]
            exact ⟨[], answered_quiet config ev host hazards quiet (.inl rfl) (by rw [if_pos last])⟩
          · have closes : closesAMO ctrl op = true := by
              rw [closesAMO, last, reads, show ctrl.amoTable.any (Ctrl.ownEntry op) = true from own]
              rfl
            refine ⟨[amoWrite op ctrl.nextPtr (amoBuffer config host target op)], ?_⟩
            constructor
            case quiet =>
              intro quiet
              simp [closes] at quiet
            case modifies =>
              intro
              refine ⟨rfl, target, host, aimed, rfl, ?_⟩
              intro whole
              have single : ¬ 1 < op.splitRqst := Nat.not_lt.mpr whole
              rw [stored target aimed, if_neg single, if_neg single, Nat.add_zero]
            case deleted =>
              rw [if_pos last]
              rfl
            all_goals rfl
        · rw [if_neg last] at finishes
          cases finishes
          have quiet : closesAMO ctrl op = false := by simp [closesAMO, last]
          exact ⟨[], answered_quiet config ev host ctrl.hazards quiet (.inl rfl)
            (by rw [if_neg last, List.append_nil])⟩

theorem handleWriteResp_ok (writes : answerLane op.op = .write)
    (handled : ctrl.handleWriteResp ev = .ok after) :
    ∃ created, Answered config ctrl ev.id ev.data op created after := by
  have quiet : closesAMO ctrl op = false := by simp [closesAMO, writes]
  unfold Ctrl.handleWriteResp at handled
  split at handled
  · cases handled
  · rename_i claimed opened claims
    obtain ⟨known, same, rfl⟩ := claim_ok claims
    rw [found] at same
    obtain rfl := Option.some.inj same
    change (if ctrl.isLast op = true then _ else _) = _ at handled
    by_cases last : ctrl.isLast op = true
    · rw [if_pos last] at handled
      split at handled
      · cases handled
      · rename_i cleared clears
        obtain ⟨hazards, rfl⟩ := clearHazard_ok clears
        cases handled
        rw [← writes]
        exact ⟨[], answered_quiet config ev ctrl.host hazards quiet (.inr ⟨writes, rfl⟩)
          (by rw [if_pos last])⟩
    · rw [if_neg last] at handled
      cases handled
      rw [← writes]
      exact ⟨[], answered_quiet config ev ctrl.host ctrl.hazards quiet (.inr ⟨writes, rfl⟩)
        (by rw [if_neg last, List.append_nil])⟩

theorem handlePlainResp_ok {lane : Lane} (plain : answerLane op.op = lane) (other : lane ≠ .read)
    (handled : ctrl.handlePlainResp lane ev = .ok after) :
    ∃ created, Answered config ctrl ev.id ev.data op created after := by
  have quiet : closesAMO ctrl op = false := by simp [closesAMO, plain, other]
  unfold Ctrl.handlePlainResp at handled
  split at handled
  · cases handled
  · rename_i claimed opened claims
    obtain ⟨known, same, rfl⟩ := claim_ok claims
    rw [found] at same
    obtain rfl := Option.some.inj same
    cases handled
    rw [← plain]
    change ∃ created, Answered config ctrl ev.id ev.data op created
      (Ctrl.settle (if ctrl.isLast op = true then _ else _) _ _)
    by_cases last : ctrl.isLast op = true
    · rw [if_pos last]
      exact ⟨[], answered_quiet config ev ctrl.host ctrl.hazards quiet (.inl rfl) (by rw [if_pos last])⟩
    · rw [if_neg last]
      exact ⟨[], answered_quiet config ev ctrl.host ctrl.hazards quiet (.inl rfl)
        (by rw [if_neg last, List.append_nil])⟩

end Handlers

theorem respond_ok {id : Nat} {data : Buffer} {request : Request} (found : ctrl.find id = some op)
    (sent : ctrl.wire.find? (fun request => request.id == id) = some request) (same : request.op = op)
    (responded : ctrl.respond config id data = .ok after) :
    ∃ created, Answered config ctrl id data op created after := by
  unfold Ctrl.respond at responded
  simp only [sent, same] at responded
  cases kind : op.op with
  | READ | READLOCK | LOADLINK =>
    rw [kind] at responded
    exact handleReadResp_ok found (by rw [kind]; rfl) responded
  | WRITE | WRITEUNLOCK | STORECOND =>
    rw [kind] at responded
    exact handleWriteResp_ok found (by rw [kind]; rfl) responded
  | FLUSH =>
    rw [kind] at responded
    exact handlePlainResp_ok found (by rw [kind]; rfl) (by decide) responded
  | CUSTOM =>
    rw [kind] at responded
    exact handlePlainResp_ok found (by rw [kind]; rfl) (by decide) responded
  | FENCE =>
    rw [kind] at responded
    cases responded

theorem finishRead_total {target hazard : Nat} (aimed : op.target = some target)
    (awaited : op.hazard = some hazard) : ∃ after, ctrl.finishRead config op = .ok after := by
  by_cases own : ctrl.amoTable.any (Ctrl.ownEntry op) = true
  · simp [Ctrl.finishRead, Ctrl.handleFlagResp, Ctrl.handleAMO, Ctrl.performAMO, Ctrl.clearHazard,
      aimed, awaited, own]
  · simp [Ctrl.finishRead, Ctrl.handleFlagResp, Ctrl.clearHazard, aimed, awaited, own]

-- Only a read needs pointers; one built with them is answered without a fault.
theorem respond_total {id : Nat} {request : Request} (data : Buffer) (known : id ∈ ctrl.requests)
    (found : ctrl.find id = some op)
    (sent : ctrl.wire.find? (fun request => request.id == id) = some request) (same : request.op = op)
    (real : op.op ≠ .FENCE)
    (pointers : answerLane op.op = .read → ∃ target hazard, op.target = some target ∧
      op.hazard = some hazard) :
    ∃ after, ctrl.respond config id data = .ok after := by
  have claims : ctrl.claim id = .ok (op, { ctrl with requests := ctrl.requests.erase id }) := by
    simp only [Ctrl.claim, known, if_true, found]
  have read : ∀ ev : Response, ev.id = id → answerLane op.op = .read →
      ∃ after, ctrl.handleReadResp config ev = .ok after := by
    rintro ev rfl reads
    obtain ⟨target, hazard, aimed, awaited⟩ := pointers reads
    have closing : ∀ ctrl : Ctrl, ∃ after,
        (if ctrl.isLast op then ctrl.finishRead config op else .ok ctrl) = .ok after := by
      intro ctrl
      split
      · exact finishRead_total aimed awaited
      · exact ⟨ctrl, rfl⟩
    simp only [Ctrl.handleReadResp, claims, Ctrl.copyTarget, aimed]
    split
    · rename_i fault failed
      obtain ⟨after, closed⟩ := closing _
      cases failed.symm.trans closed
    · exact ⟨_, rfl⟩
  have write : ∀ ev : Response, ev.id = id → ∃ after, ctrl.handleWriteResp ev = .ok after := by
    rintro ev rfl
    simp only [Ctrl.handleWriteResp, claims, Ctrl.clearHazard]
    split
    · cases op.hazard with
      | none => exact ⟨_, rfl⟩
      | some hazard => exact ⟨_, rfl⟩
    · exact ⟨_, rfl⟩
  have plain : ∀ (lane : Lane) (ev : Response), ev.id = id →
      ∃ after, ctrl.handlePlainResp lane ev = .ok after := by
    rintro lane ev rfl
    simp only [Ctrl.handlePlainResp, claims]
    exact ⟨_, rfl⟩
  unfold Ctrl.respond
  simp only [sent, same]
  cases kind : op.op with
  | READ | READLOCK | LOADLINK => exact read _ rfl (by rw [kind]; rfl)
  | WRITE | WRITEUNLOCK | STORECOND => exact write _ rfl
  | FLUSH => exact plain .flush _ rfl
  | CUSTOM => exact plain .custom _ rfl
  | FENCE => exact absurd kind real

end Answer
end RevCPU.MemCtrl
