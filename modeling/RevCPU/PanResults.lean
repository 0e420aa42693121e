import RevCPU.PanPairing
/-!
What the responses of a device carry. A request that returns a value has one response, at once or when
its read is answered, and the response is followed here through every builder and setter it goes
through.
-/
namespace RevCPU.Pan
open Mem MemRefine RegFile

def PanOpcode.returnsValue : PanOpcode → Bool
  | .Exec | .BOTW | .Status | .Cancel | .ReadReg | .SyncStreamGet | .AsyncStreamGet => true
  | _ => false

/-- The response to a request: pushed by its handler, or by the answer to the read that its handler
queued, in whatever state `later` that read is answered. -/
inductive Responds (cpu : PanCPU) (event : PanNicEvent) (rand : BitVec 32) (fresh : Nat → Buffer)
    (later : PanCPU) (target : Buffer) : PanCPU → PanNicEvent → Prop
  | atOnce {after : PanCPU} {reply : PanNicEvent}
      (handled : cpu.handleNetPANMessage event rand fresh = .ok after)
      (unread : after.readQueue = cpu.readQueue)
      (pushed : after.sendMB = cpu.sendMB ++ [(reply, event.src)]) :
      Responds cpu event rand fresh later target after reply
  | read {after done : PanCPU} {rqst : ReadRqst} {reply : PanNicEvent}
      (handled : cpu.handleNetPANMessage event rand fresh = .ok after)
      (queued : after.readQueue = cpu.readQueue ++ [rqst])
      (silent : after.sendMB = cpu.sendMB)
      (answered : later.answerRead rqst target = .ok done)
      (pushed : done.sendMB = later.sendMB ++ [(reply, event.src)]) :
      Responds cpu event rand fresh later target after reply

def Queued (exec : PanExec) (idx : Nat) : Prop := ∃ entry ∈ exec.execQueue, entry.idx = idx

section Requests
variable (cpu : PanCPU) (event : PanNicEvent)

/-- The core and the register that a ReadReg names. -/
def regIndex : BitVec 32 := event.addr.setWidth 32

def regValue (core : Core) (regs : RevRegFile) (idx : BitVec 32) : BitVec 64 :=
  if core.feature.xlen = 32 then (regs.x32 (idx.setWidth 8)).setWidth 64 else regs.x64 (idx.setWidth 8)

/-- Whether the index, or the hart and the register, that a request names are there. -/
def Present : Prop :=
  match event.opcode with
  | .Status | .Cancel => Queued cpu.pExec event.size.toNat
  | .ReadReg => event.size.toNat < cpu.procs.length ∧ (regIndex event).toNat < Core.numRegs
  | _ => True

/-- The packet carries the bytes that a stream get asks for. -/
def CarriesBytes (mem : RevMem) (reply : PanNicEvent) : Prop :=
  reply.size = event.size ∧ ∃ words, reply.getData = some words ∧
    ∀ index, index < event.size.toNat →
      bufferOf words index = byteAt mem (event.addr.toNat + index)

/-- What a response reports, with the entry added or removed and the value on the wire. -/
def Carries (after : PanCPU) (mem : RevMem) (reply : PanNicEvent) : Prop :=
  match event.opcode with
  | .Exec | .BOTW => reply.size.toNat = cpu.pExec.getNewEntry
  | .Status => reply.size = PanCPU.statusCode (cpu.pExec.statusEntry event.size.toNat)
  | .Cancel => after.pExec.execQueue =
      cpu.pExec.execQueue.eraseP fun entry => entry.idx == event.size.toNat
  | .ReadReg => ∃ core regs, cpu.procs[event.size.toNat]? = some core ∧ core.file = some regs ∧
      reply.getData = some [regValue core regs (regIndex event)]
  | _ => CarriesBytes event mem reply

/-- A response that is the request's, fails exactly where what the request names is missing, and
otherwise carries the value. -/
structure Intact (after : PanCPU) (mem : RevMem) (reply : PanNicEvent) : Prop where
  responds : reply.opcode.responds = true
  tag : reply.tag = event.tag
  failed : reply.opcode = .Failed ↔ ¬ Present cpu event
  value : reply.opcode = .Success → Carries cpu event after mem reply

/-- The requests that a handler turns down: without the reserved token, with a full queue, with an
index, a hart or a register that is missing, or at a core that still runs. -/
def Refused : Prop :=
  cpu.nic.checkToken event.token = false ∨
    match event.opcode with
    | .Exec | .BOTW => cpu.pExec.execQueue.length = maxEntry
    | .Cancel => ¬ Queued cpu.pExec event.size.toNat
    | .ReadReg => ¬ Present cpu event ∨
        ∃ core, cpu.procs[event.size.toNat]? = some core ∧ core.halted = false
    | _ => False

-- PanExec reports such an index as QError, and the handler looks for QNull.
def UnknownStatus : Prop :=
  event.opcode = .Status ∧ cpu.nic.checkToken event.token = true ∧
    ¬ Queued cpu.pExec event.size.toNat

/-- What a request does and returns: the entry is queued or removed, the response has the value of the
register, or it carries the bytes of a stream that a packet without a stream's size can say and that
ends on the page it begins on. -/
def CarriedOut (after : PanCPU) (mem : RevMem) (reply : PanNicEvent) : Prop :=
  match event.opcode with
  | .Exec => after.pExec.execQueue =
      cpu.pExec.execQueue ++ [⟨cpu.pExec.getNewEntry, .QValid, event.addr⟩]
  | .BOTW => after.pExec.execQueue = cpu.pExec.execQueue ++
      [⟨cpu.pExec.getNewEntry, .QValid, event.offset.setWidth 64 + cpu.symbolStart⟩]
  | .Status => after.pExec = cpu.pExec
  | .Cancel => after.pExec.execQueue =
      cpu.pExec.execQueue.eraseP fun entry => entry.idx == event.size.toNat
  | .ReadReg => ∃ core regs, cpu.procs[event.size.toNat]? = some core ∧ core.file = some regs ∧
      reply.data = [regValue core regs (regIndex event)]
  | _ => event.size.toNat < 2 ^ 16 →
      event.addr.toNat % pageSize + event.size.toNat ≤ pageSize → CarriesBytes event mem reply

structure Reported (after : PanCPU) (mem : RevMem) (reply : PanNicEvent) : Prop where
  responds : reply.opcode.responds = true
  tag : reply.tag = event.tag
  failed : ¬ UnknownStatus cpu event → (reply.opcode = .Failed ↔ Refused cpu event)
  unchanged : reply.opcode = .Failed → after.pExec = cpu.pExec
  result : reply.opcode = .Success → CarriedOut cpu event after mem reply

end Requests

section Streams
variable {later done : PanCPU} {rqst : ReadRqst} {target : Buffer}

theorem bufferOf_words (data : Buffer) {count index : Nat} (inside : index < 8 * count) :
    bufferOf ((List.range count).map (wordsOf data)) index = data index := by
  have word : index / 8 < count := Nat.div_lt_of_lt_mul inside
  have byte : index % 8 < 8 := Nat.mod_lt index (by decide)
  rw [bufferOf, List.getD_eq_getElem?_getD, List.getElem?_eq_getElem (by simpa using word),
    Option.getD_some, List.getElem_map, List.getElem_range, wordsOf, bytesOf_word64 _ _ byte, Nat.div_add_mod]

/-- A read whose size fits the packet of a response: the words are those of the buffer. -/
theorem readReply_carries (later : PanCPU) (rqst : ReadRqst) (data : Buffer)
    (short : rqst.size.toNat < 2 ^ 16) : (later.readReply rqst data).size = rqst.size ∧ ∃ words,
      (later.readReply rqst data).getData = some words ∧
      ∀ index, index < rqst.size.toNat → bufferOf words index = data index := by
  have masked : rqst.size &&& 0xFFFF = rqst.size := by
    apply BitVec.eq_of_toNat_eq
    have mask : (0xFFFF : BitVec 32).toNat = 2 ^ 16 - 1 := by decide
    rw [BitVec.toNat_and, mask, Nat.and_two_pow_sub_one_eq_mod, Nat.mod_eq_of_lt short]
  have sized : ∀ packet : PanNicEvent, packet.opcode = .Success →
      packet.setSize rqst.size = { packet with size := rqst.size } := by
    intro packet success
    have base : packet.opcode.getType = .PanBase := by rw [success]; rfl
    simp only [PanNicEvent.setSize, base, masked]
  rw [PanCPU.readReply, buildSuccess_eq, sized _ rfl]
  by_cases zero : rqst.size = 0
  · have empty : rqst.size.toNat = 0 := by rw [zero]; rfl
    refine ⟨?_, [], ?_, fun index inside => by omega⟩
    · simp [PanNicEvent.setData, zero, PanNicEvent.setSrc]
    · simp [PanNicEvent.setData, zero, PanNicEvent.setSrc, PanNicEvent.getData]
  · have some : rqst.size ≠ 0#32 := zero
    refine ⟨?_, (List.range (getNumBlocks rqst.size)).map (wordsOf data), ?_, ?_⟩
    · simp [PanNicEvent.setData, some, PanNicEvent.setSrc]
    · simp [PanNicEvent.setData, some, PanNicEvent.setSrc, PanNicEvent.getData, PanNicEvent.new]
    · intro index inside
      apply bufferOf_words
      rw [getNumBlocks_eq]
      omega

-- On one page the second loop of ReadMem copies nothing.
theorem answerRead_carries {event : PanNicEvent} (cost : BitVec 32)
    (usable : Usable later.mem event.addr.toNat event.size.toNat) (target : Buffer) :
    ∃ done reply, later.answerRead ⟨event.tag, event.size, cost, event.src, event.addr⟩ target =
        .ok done ∧ done.sendMB = later.sendMB ++ [(reply, event.src)] ∧
      reply.tag = event.tag ∧ reply.opcode = .Success ∧
      (event.size.toNat < 2 ^ 16 →
        event.addr.toNat % pageSize + event.size.toNat ≤ pageSize →
        CarriesBytes event later.mem reply) := by
  obtain ⟨mem, read, _⟩ := readMemOld_valid usable target
  have fields := readReply_fields later ⟨event.tag, event.size, cost, event.src, event.addr⟩
    (loadOld (byteAt later.mem) event.addr.toNat event.size.toNat target)
  refine ⟨_, _, by rw [PanCPU.answerRead, read], rfl, fields.1, fields.2, fun short inside => ?_⟩
  obtain ⟨size, words, packed, same⟩ :=
    readReply_carries later ⟨event.tag, event.size, cost, event.src, event.addr⟩
      (loadOld (byteAt later.mem) event.addr.toNat event.size.toNat target) short
  refine ⟨size, words, packed, fun index below => (same index below).trans ?_⟩
  have whole : min event.size.toNat (pageSize - event.addr.toNat % pageSize) =
    event.size.toNat := by omega
  simp only [loadOld, whole, if_true, flatLoad]
  exact if_pos below

end Streams

section Handlers
variable {cpu base later : PanCPU} {event : PanNicEvent} {rand : BitVec 32} {fresh : Nat → Buffer}
  {target : Buffer}

theorem queued_iff (exec : PanExec) (idx : Nat) :
    Queued exec idx ↔ (exec.execQueue.any fun entry => entry.idx == idx) = true := by
  simp [Queued]

-- A queued entry has a status, so QNull is never what its index reports.
theorem statusEntry_queued {exec : PanExec} (built : Built exec) (idx : Nat) :
    exec.statusEntry idx ≠ .QNull := by
  rw [PanExec.statusEntry]
  split
  · rename_i entry found
    exact built.status entry (List.mem_of_find?_eq_some found)
  · simp

theorem refused_reported
    (handled : cpu.handleNetPANMessage event rand fresh = .ok (cpu.panBuildFailedToken event))
    (refused : Refused cpu event) :
    ∃ after reply, Responds cpu event rand fresh later target after reply ∧
      Reported cpu event after later.mem reply := by
  refine ⟨_, _, .atOnce handled rfl rfl, ?_⟩
  rw [buildFailed_eq]
  constructor
  · rfl
  · rfl
  · exact fun _ => ⟨fun _ => refused, fun _ => rfl⟩
  · exact fun _ => rfl
  · exact fun success => absurd success (by simp)

theorem pushed_reported {reply : PanNicEvent}
    (handled : cpu.handleNetPANMessage event rand fresh = .ok (base.push reply event.src))
    (kept : Kept cpu base) (success : reply.opcode = .Success) (tag : reply.tag = event.tag)
    (accepted : ¬ UnknownStatus cpu event → ¬ Refused cpu event)
    (result : CarriedOut cpu event (base.push reply event.src) later.mem reply) :
    ∃ after reply, Responds cpu event rand fresh later target after reply ∧
      Reported cpu event after later.mem reply := by
  refine ⟨_, reply, .atOnce handled kept.readQueue (by rw [PanCPU.push, kept.sendMB]), ?_⟩
  have other : reply.opcode ≠ .Failed := by simp [success]
  constructor
  · rw [success]
    rfl
  · exact tag
  · exact fun known => ⟨fun failed => absurd failed other, fun refused => absurd refused (accepted known)⟩
  · exact fun failed => absurd failed other
  · exact fun _ => result

theorem sized_reported {size : BitVec 32}
    (handled : cpu.handleNetPANMessage event rand fresh = .ok (base.replySized event size))
    (kept : Kept cpu base) (accepted : ¬ UnknownStatus cpu event → ¬ Refused cpu event)
    (result : ∀ after reply, after.pExec = base.pExec → CarriedOut cpu event after later.mem reply) :
    ∃ after reply, Responds cpu event rand fresh later target after reply ∧
      Reported cpu event after later.mem reply := by
  refine pushed_reported handled kept ?_ ?_ accepted (result _ _ rfl)
  · rw [PanCPU.panBuildBasicSuccess, buildSuccess_eq]
  · rw [PanCPU.panBuildBasicSuccess, buildSuccess_eq]

theorem added_reported {addr : BitVec 64}
    (handled : cpu.handleNetPANMessage event rand fresh = .ok
      (match cpu.pExec.addEntry addr with
      | none => cpu.panBuildFailedToken event
      | some (idx, exec) => { cpu with pExec := exec }.replySized event (BitVec.ofNat 32 idx)))
    (refused : Refused cpu event ↔ cpu.pExec.execQueue.length = maxEntry)
    (result : ∀ after reply, after.pExec.execQueue =
      cpu.pExec.execQueue ++ [⟨cpu.pExec.getNewEntry, .QValid, addr⟩] →
        CarriedOut cpu event after later.mem reply) :
    ∃ after reply, Responds cpu event rand fresh later target after reply ∧
      Reported cpu event after later.mem reply := by
  by_cases full : cpu.pExec.execQueue.length = maxEntry
  · simp only [PanExec.addEntry, full, if_true] at handled
    exact refused_reported handled (refused.mpr full)
  · simp only [PanExec.addEntry, full, if_false] at handled
    apply sized_reported handled
    · constructor <;> rfl
    · exact fun _ turned => full (refused.mp turned)
    · intro after reply same
      exact result after reply (by rw [same])

-- A register fills one word, whatever its width.
theorem PanCPU.registerReply_fields (cpu : PanCPU) (event : PanNicEvent) (value : BitVec 64)
    {width : BitVec 32} (one : width = 4 ∨ width = 8) :
    let reply := cpu.panBuildBasicSuccess event
      (((PanNicEvent.new.setData (fun _ => value) width).setSize width).setSrc cpu.address)
    reply.opcode = .Success ∧ reply.tag = event.tag ∧ reply.data = [value] := by
  have filled : PanNicEvent.new.setData (fun _ => value) width =
      { PanNicEvent.new with data := [value] } := by
    rcases one with four | eight
    · subst four
      simp [PanNicEvent.setData, getNumBlocks, PanNicEvent.new]
    · subst eight
      simp [PanNicEvent.setData, getNumBlocks, PanNicEvent.new]
  rw [filled, PanCPU.panBuildBasicSuccess, buildSuccess_eq, setSize_eq]
  exact ⟨rfl, rfl, rfl⟩

variable (accepted : cpu.nic.checkToken event.token = true)
include accepted

theorem exec_reported (named : event.opcode = .Exec) :
    ∃ after reply, Responds cpu event rand fresh later target after reply ∧
      Reported cpu event after later.mem reply := by
  apply added_reported
  · rw [PanCPU.handleNetPANMessage, named]
    simp only [PanCPU.panHandleExec, accepted, Bool.not_true, Bool.false_eq_true, if_false]
    rfl
  · simp [Refused, accepted, named]
  · intro after reply added
    rw [CarriedOut, named]
    exact added

theorem botw_reported (named : event.opcode = .BOTW) :
    ∃ after reply, Responds cpu event rand fresh later target after reply ∧
      Reported cpu event after later.mem reply := by
  apply added_reported
  · rw [PanCPU.handleNetPANMessage, named]
    simp only [PanCPU.panHandleBOTW, accepted, Bool.not_true, Bool.false_eq_true, if_false]
    rfl
  · simp [Refused, accepted, named]
  · intro after reply added
    rw [CarriedOut, named]
    exact added

theorem status_reported (built : Built cpu.pExec) (named : event.opcode = .Status) :
    ∃ after reply, Responds cpu event rand fresh later target after reply ∧
      Reported cpu event after later.mem reply := by
  have known := statusEntry_queued built event.size.toNat
  have handled : cpu.handleNetPANMessage event rand fresh = .ok (cpu.replySized event
      (PanCPU.statusCode (cpu.pExec.statusEntry event.size.toNat))) := by
    rw [PanCPU.handleNetPANMessage, named]
    simp only [PanCPU.panHandleStatus, accepted, known, Bool.not_true, Bool.false_eq_true, if_false]
  apply sized_reported handled
  · exact .refl
  · simp [Refused, accepted, named]
  · intro after reply same
    rw [CarriedOut, named]
    exact same

theorem cancel_reported (named : event.opcode = .Cancel) :
    ∃ after reply, Responds cpu event rand fresh later target after reply ∧
      Reported cpu event after later.mem reply := by
  have handled : cpu.handleNetPANMessage event rand fresh = .ok (cpu.panHandleCancel event) := by
    rw [PanCPU.handleNetPANMessage, named]
  simp only [PanCPU.panHandleCancel, accepted, Bool.not_true, Bool.false_eq_true, if_false,
    PanExec.removeEntry] at handled
  by_cases queued : (cpu.pExec.execQueue.any fun entry => entry.idx == event.size.toNat) = true
  · simp only [queued, if_true] at handled
    have present : Queued cpu.pExec event.size.toNat := (queued_iff ..).mpr queued
    apply sized_reported handled
    · constructor <;> rfl
    · simp [Refused, accepted, named, present]
    · intro after reply same
      rw [CarriedOut, named, same]
  · simp only [queued, Bool.false_eq_true, if_false] at handled
    apply refused_reported handled
    simp only [Refused, named]
    exact .inr fun present => queued ((queued_iff ..).mp present)

theorem readReg_reported (ready : Ready cpu event) (named : event.opcode = .ReadReg) :
    ∃ after reply, Responds cpu event rand fresh later target after reply ∧
      Reported cpu event after later.mem reply := by
  have cores := ready.cores
  have counted := ready.counted
  have accessible := ready.accessible accepted
  simp only [Accessible, named] at accessible
  have handled : cpu.handleNetPANMessage event rand fresh = cpu.panHandleReadReg event := by
    rw [PanCPU.handleNetPANMessage, named]
  simp only [PanCPU.panHandleReadReg, PanCPU.withHart, accepted, Bool.not_true, Bool.false_eq_true,
    if_false] at handled
  by_cases inside : event.size.toNat < cpu.procs.length
  · have found := List.getElem?_eq_getElem inside
    have here : cpu.noHart event = false := by
      simp only [PanCPU.noHart, decide_eq_false_iff_not, not_lt]
      omega
    obtain ⟨regs, file⟩ := Option.isSome_iff_exists.mp (accessible _ found)
    simp only [here, Bool.false_eq_true, if_false, found, Core.debugReadReg, file] at handled
    by_cases running : cpu.procs[event.size.toNat].halted = false
    · simp only [running, if_true] at handled
      apply refused_reported handled
      simp only [Refused, named]
      exact .inr (.inr ⟨_, found, running⟩)
    · simp only [running] at handled
      by_cases above : Core.numRegs - 1 < (regIndex event).toNat
      · rw [regIndex] at above
        simp only [above, if_true] at handled
        apply refused_reported handled
        simp only [Refused, named, Present, regIndex, Core.numRegs] at above ⊢
        exact .inr (.inl fun present => by omega)
      · have below : (regIndex event).toNat < Core.numRegs := by
          simp only [Core.numRegs] at above ⊢
          omega
        have kept : ¬ Refused cpu event := by
          rintro (token | missing)
          · exact absurd accepted (by simp [token])
          · simp only [named, Present, found, inside, below] at missing
            simp [running] at missing
        rw [regIndex] at above
        simp only [above, if_false] at handled
        by_cases narrow : cpu.procs[event.size.toNat].feature.xlen = 32
        · simp only [narrow, if_true] at handled
          have fields := cpu.registerReply_fields event
            ((regs.x32 ((regIndex event).setWidth 8)).setWidth 64) (.inl rfl)
          apply pushed_reported handled .refl fields.1 fields.2.1 fun _ => kept
          simp only [CarriedOut, named, regValue, found]
          exact ⟨_, regs, rfl, file, by rw [if_pos narrow]; exact fields.2.2⟩
        · simp only [narrow, if_false] at handled
          have fields := cpu.registerReply_fields event
            (regs.x64 ((regIndex event).setWidth 8)) (.inr rfl)
          apply pushed_reported handled .refl fields.1 fields.2.1 fun _ => kept
          simp only [CarriedOut, named, regValue, found]
          exact ⟨_, regs, rfl, file, by rw [if_neg narrow]; exact fields.2.2⟩
  · have gone : cpu.noHart event = true := by
      simp only [PanCPU.noHart, decide_eq_true_eq]
      omega
    simp only [gone, if_true] at handled
    apply refused_reported handled
    simp only [Refused, named, Present]
    exact .inr (.inl fun present => inside present.1)

theorem stream_reported (ready : Ready cpu event)
    (named : event.opcode = .SyncStreamGet ∨ event.opcode = .AsyncStreamGet)
    (usable : Usable later.mem event.addr.toNat event.size.toNat) :
    ∃ after reply, Responds cpu event rand fresh later target after reply ∧
      Reported cpu event after later.mem reply := by
  have reads : event.opcode.reads = true := by
    rcases named with sync | async
    · rw [sync]
      rfl
    · rw [async]
      rfl
  have ⟨core, first⟩ : ∃ core, cpu.procs.head? = some core := by
    cases procs : cpu.procs with
    | nil => exact absurd ready.cores (by simp [procs])
    | cons core rest => exact ⟨core, rfl⟩
  have handled : cpu.handleNetPANMessage event rand fresh = cpu.pushRead event rand :=
    handle_reads reads accepted
  rw [pushRead_ok first] at handled
  have ⟨done, reply, answered, pushed, tag, success, carries⟩ :=
    answerRead_carries (randCost core.feature rand) usable target
  have other : reply.opcode ≠ .Failed := by simp [success]
  have served : ¬ Refused cpu event := by
    rcases named with sync | async
    · simp [Refused, accepted, sync]
    · simp [Refused, accepted, async]
  refine ⟨_, reply, .read handled rfl rfl answered pushed, ?_⟩
  constructor
  · rw [success]
    rfl
  · exact tag
  · exact fun _ => ⟨fun failed => absurd failed other, fun refused => absurd refused served⟩
  · exact fun failed => absurd failed other
  · intro _
    rcases named with sync | async
    · rw [CarriedOut, sync]
      exact carries
    · rw [CarriedOut, async]
      exact carries

end Handlers

section Results
variable {cpu later : PanCPU} {event : PanNicEvent} {rand : BitVec 32} {fresh : Nat → Buffer}
  {target : Buffer}

/-- A request that returns a value has one response with its tag. The response fails exactly where the
handler turns the request down, an index that is not there apart, and otherwise the request is carried
out and a register or the bytes of a stream are in the response. -/
theorem results_reported (device : cpu.nic.isHost = false) (built : Built cpu.pExec)
    (ready : Ready cpu event) (returns : event.opcode.returnsValue = true)
    (usable : event.opcode.reads = true → Usable later.mem event.addr.toNat event.size.toNat) :
    ∃ after reply, Responds cpu event rand fresh later target after reply ∧
      Reported cpu event after later.mem reply := by
  cases accepted : cpu.nic.checkToken event.token with
  | false =>
    have request : event.opcode.requests = true ∧ event.opcode ≠ .SyncGet ∧
        event.opcode ≠ .Reserve := by
      revert returns
      cases event.opcode <;> decide
    exact refused_reported (handle_refused request.1 device accepted request.2.1 request.2.2)
      (.inl accepted)
  | true =>
    cases named : event.opcode with
    | Exec => exact exec_reported accepted named
    | BOTW => exact botw_reported accepted named
    | Status => exact status_reported accepted built named
    | Cancel => exact cancel_reported accepted named
    | ReadReg => exact readReg_reported accepted ready named
    | SyncStreamGet => exact stream_reported accepted ready (.inl named) (usable (by rw [named]; rfl))
    | AsyncStreamGet =>
      exact stream_reported accepted ready (.inr named) (usable (by rw [named]; rfl))
    | _ =>
      rw [named] at returns
      exact absurd returns (by decide)

/-- A stream get of the first bytes of the stack. -/
def stackStream : PanNicEvent := { stackGet 7 4 5 with opcode := .SyncStreamGet }

theorem results_reported_stream :
    ∃ after reply, Responds smallDevice stackStream 0 (fun _ _ => 0) smallDevice (fun _ => 0) after
      reply ∧ Reported smallDevice stackStream after smallDevice.mem reply :=
  results_reported rfl .new ⟨by decide, by decide, fun _ => trivial⟩ rfl fun _ => stack_usable rfl

/-- A device with an entry of the index 1, and a Cancel of it without the token. -/
def queuedDevice : PanCPU := { smallDevice with pExec := ⟨1, [⟨1, .QValid, 0⟩]⟩ }

def wrongCancel : PanNicEvent := { stackGet 6 4 5 with opcode := .Cancel, size := 1 }

-- The Cancel fails though the index is there.
theorem results_not_intact : ¬ ∃ after reply,
    Responds queuedDevice wrongCancel 0 (fun _ _ => 0) queuedDevice (fun _ => 0) after reply ∧
      Intact queuedDevice wrongCancel after queuedDevice.mem reply := by
  rintro ⟨after, reply, responds, intact⟩
  cases responds with
  | atOnce handled unread pushed =>
    cases handled
    cases pushed
    exact intact.failed.mp rfl ⟨_, List.mem_singleton_self _, rfl⟩
  | read handled queued silent answered pushed =>
    cases handled
    cases queued

end Results
end RevCPU.Pan
