import RevCPU.MemRefine
import RevCPU.PanCPU
/-!
Runs of the PAN side of a device that is not a host. A run is any interleaving of packets handed to
handleNetPANMessage, calls of sendPANMessage and of processPANMemRead as the clock makes them, request
packets that the mailbox posts, and whatever the cores do to the memory, the registers and the queues
in between. Each handler is taken apart once, into what it answers and what it leaves alone.
-/
namespace RevCPU.Pan
open Mem MemRefine RegFile FirstTouch

/-- The memory accepts an access: what the accesses of a memory that is sized and coherent ask for. -/
structure Usable (mem : RevMem) (addr len : Nat) : Prop where
  sized : Sized mem
  coherent : Coherent mem
  cached : mem.tlbSize ≠ 0
  short : len ≤ pageSize
  touchable : Touchable mem addr len

section Memory
variable {mem : RevMem} {addr len : Nat}

theorem copyLast_valid (coherent : Coherent mem) {base : Nat} (cur : Nat) (target : Buffer)
    {count : Nat} (behind : ∀ step, step < count →
      place mem.pageMap pageSize (addr + step) = some (base + step)) :
    mem.copyLast base cur target count =
      .ok (if count = 0 then target
        else Function.update target cur (byteAt mem (addr + (count - 1)))) := by
  induction count with
  | zero => rfl
  | succ count ih =>
    have cell := behind count (Nat.lt_succ_self count)
    have bound := place_lt_memSize coherent cell
    have byte : mem.physMem (base + count) = byteAt mem (addr + count) := (view_placed cell).symm
    rw [RevMem.copyLast, ih fun step inside => behind step (by omega)]
    simp only [bound, if_true, byte, Nat.add_one_ne_zero, if_false, Nat.add_sub_cancel]
    split_ifs
    · rfl
    · rw [Function.update_idem]

/-- What ReadMem without a hart leaves in the buffer. -/
def loadOld (flat : Nat → Byte) (addr len : Nat) (target : Buffer) : Buffer :=
  let count := min len (pageSize - addr % pageSize)
  let head := flatLoad flat addr count target
  if len = count then head else Function.update head count (flat (addr + (len - 1)))

theorem readMemOld_valid (usable : Usable mem addr len) (target : Buffer) :
    ∃ after, mem.readMemOld addr len target = .ok (loadOld (byteAt mem) addr len target, after) ∧
      Unseen mem after := by
  obtain ⟨extent, first, located, unseen, covers, split⟩ :=
    locate_split usable.sized usable.coherent usable.cached usable.short usable.touchable
  have copied := copyOut_valid unseen.coherent 0 target covers.first
  have copiedLast := fun buffer =>
    copyLast_valid unseen.coherent extent.count buffer covers.second
  have counted : Unseen first { first with memStats := { first.memStats with
      bytesRead := (first.memStats.bytesRead + len) % 2 ^ 32 } } :=
    .of_pageMap unseen.coherent rfl rfl rfl rfl unseen.coherent.cached
  have total := covers.total
  have head : (fun index => if 0 ≤ index ∧ index < 0 + extent.count then
      byteAt mem (addr + (index - 0)) else target index) =
        flatLoad (byteAt mem) addr extent.count target := by
    funext index
    simp [flatLoad]
  refine ⟨_, ?_, unseen.trans counted⟩
  simp only [RevMem.readMemOld, located, copied, copiedLast, unseen.view, head, loadOld, ← split]
  by_cases whole : len = extent.count
  · rw [if_pos whole, if_pos (by omega)]
  · have last : addr + extent.count + (extent.span - 1) = addr + (len - 1) := by omega
    rw [if_neg whole, if_neg (by omega), last]

theorem writeMem_valid (usable : Usable mem addr len) (data : Buffer) :
    ∃ after, mem.writeMem 0 addr len data = .ok after ∧ Coherent after ∧
      layout after = layout mem ∧
      ∀ vAddr, byteAt after vAddr = flatStore (byteAt mem) addr len data vAddr :=
  storeLocal_valid usable.sized usable.coherent usable.cached usable.short usable.touchable data

theorem Usable.of_unseen {after : RevMem} (usable : Usable mem addr len)
    (unseen : Unseen mem after) : Usable after addr len := by
  have same := unseen.layout
  have fields := layout_fields same
  constructor
  · exact usable.sized.of_layout same
  · exact unseen.coherent
  · rw [fields.2]
    exact usable.cached
  · exact usable.short
  · constructor
    · rw [isValidVirtAddr_layout same]
      exact usable.touchable.first
    · intro crossing
      rw [isValidVirtAddr_layout same]
      exact usable.touchable.next crossing

end Memory

/-- Work of a handler that leaves the mailbox and the reservation alone. -/
structure Kept (cpu base : PanCPU) : Prop where
  sendMB : base.sendMB = cpu.sendMB
  net : base.net = cpu.net
  readQueue : base.readQueue = cpu.readQueue
  nic : base.nic = cpu.nic
  ready : base.readyForRevoke = cpu.readyForRevoke

/-- A packet that is answered at once: what its handler leaves alone while it pushes one response. -/
structure Answered (cpu : PanCPU) (event : PanNicEvent) (after : PanCPU) : Prop where
  reply : ∃ reply, after.sendMB = cpu.sendMB ++ [(reply, event.src)] ∧ reply.tag = event.tag ∧
    reply.opcode.responds = true
  net : after.net = cpu.net
  readQueue : after.readQueue = cpu.readQueue
  isHost : after.nic.isHost = cpu.nic.isHost
  nic : event.opcode ≠ .Reserve → after.nic = cpu.nic
  ready : event.opcode ≠ .Revoke → after.readyForRevoke = cpu.readyForRevoke

/-- The opcodes whose response waits in the read queue. -/
def PanOpcode.reads : PanOpcode → Bool
  | .SyncGet | .AsyncGet | .SyncStreamGet | .AsyncStreamGet => true
  | _ => false

section Handlers
variable {cpu base after : PanCPU} {event : PanNicEvent} {rand : BitVec 32} {fresh : Nat → Buffer}

theorem Kept.refl : Kept cpu cpu := ⟨rfl, rfl, rfl, rfl, rfl⟩

theorem push_answered (kept : Kept cpu base) {reply : PanNicEvent} (tag : reply.tag = event.tag)
    (responds : reply.opcode.responds = true) : Answered cpu event (base.push reply event.src) where
  reply := ⟨reply, by rw [PanCPU.push, kept.sendMB], tag, responds⟩
  net := kept.net
  readQueue := kept.readQueue
  isHost := congrArg PanNicAPI.isHost kept.nic
  nic := fun _ => kept.nic
  ready := fun _ => kept.ready

theorem failed_answered (kept : Kept cpu base) :
    Answered cpu event (base.panBuildFailedToken event) := by
  apply push_answered kept <;> rw [buildFailed_eq]
  rfl

theorem raw_answered (kept : Kept cpu base) :
    Answered cpu event (base.panBuildRawSuccess event) := by
  apply push_answered kept <;> rw [buildSuccess_eq]
  rfl

theorem sized_answered (kept : Kept cpu base) (size : BitVec 32) :
    Answered cpu event (base.replySized event size) := by
  apply push_answered kept <;> rw [PanCPU.panBuildBasicSuccess, buildSuccess_eq]
  rfl

theorem panHandlePut_answered {zeroAddr : Bool}
    (handled : cpu.panHandlePut event zeroAddr = .ok after) : Answered cpu event after := by
  rw [PanCPU.panHandlePut] at handled
  split at handled
  · cases handled
    exact failed_answered .refl
  · split at handled
    · cases handled
    · split at handled
      · cases handled
        apply sized_answered
        constructor <;> rfl
      · rw [PanCPU.store] at handled
        split at handled
        · cases handled
        · rename_i stored same
          split at same
          · cases same
          · cases same
            cases handled
            apply sized_answered
            constructor <;> rfl

theorem withHart_answered {handle : Core → Except PanFault PanCPU}
    (each : ∀ core, handle core = .ok after → Answered cpu event after)
    (handled : cpu.withHart event handle = .ok after) : Answered cpu event after := by
  rw [PanCPU.withHart] at handled
  split at handled
  · cases handled
    exact failed_answered .refl
  · split at handled
    · cases handled
      exact failed_answered .refl
    · split at handled
      · cases handled
      · exact each _ handled

theorem panHandleReadReg_answered (handled : cpu.panHandleReadReg event = .ok after) :
    Answered cpu event after := by
  refine withHart_answered (fun core handled => ?_) handled
  split at handled
  · cases handled
  · cases handled
    exact failed_answered .refl
  · cases handled
    apply push_answered .refl <;> rw [PanCPU.panBuildBasicSuccess, buildSuccess_eq]
    rfl

theorem panHandleWriteReg_answered (handled : cpu.panHandleWriteReg event = .ok after) :
    Answered cpu event after := by
  refine withHart_answered (fun core handled => ?_) handled
  split at handled
  · cases handled
  · split at handled
    · cases handled
    · cases handled
      exact failed_answered .refl
    · cases handled
      apply raw_answered
      constructor <;> rfl

theorem panHandleSingleStep_answered (handled : cpu.panHandleSingleStep event = .ok after) :
    Answered cpu event after := by
  refine withHart_answered (fun core handled => ?_) handled
  split at handled
  · cases handled
    exact failed_answered .refl
  · cases handled
    apply push_answered
    · constructor <;> rfl
    · rw [PanCPU.panBuildBasicSuccess, buildSuccess_eq]
      rfl
    · rw [PanCPU.panBuildBasicSuccess, buildSuccess_eq]
      rfl

theorem panHandleHalt_answered (handled : cpu.panHandleHalt event = .ok after) :
    Answered cpu event after := by
  refine withHart_answered (fun core handled => ?_) handled
  cases handled
  apply raw_answered
  constructor <;> rfl

theorem panHandleResume_answered : Answered cpu event (cpu.panHandleResume event) := by
  rw [PanCPU.panHandleResume]
  split
  · exact failed_answered .refl
  · dsimp only
    split
    · apply failed_answered
      constructor <;> rfl
    · apply raw_answered
      constructor <;> rfl

theorem panHandleExec_answered : Answered cpu event (cpu.panHandleExec event) := by
  rw [PanCPU.panHandleExec]
  split
  · exact failed_answered .refl
  · split
    · exact failed_answered .refl
    · apply sized_answered
      constructor <;> rfl

theorem panHandleBOTW_answered : Answered cpu event (cpu.panHandleBOTW event) := by
  rw [PanCPU.panHandleBOTW]
  split
  · exact failed_answered .refl
  · split
    · exact failed_answered .refl
    · apply sized_answered
      constructor <;> rfl

theorem panHandleStatus_answered : Answered cpu event (cpu.panHandleStatus event) := by
  rw [PanCPU.panHandleStatus]
  split
  · exact failed_answered .refl
  · dsimp only
    split
    · exact failed_answered .refl
    · exact sized_answered .refl _

theorem panHandleCancel_answered : Answered cpu event (cpu.panHandleCancel event) := by
  rw [PanCPU.panHandleCancel]
  split
  · exact failed_answered .refl
  · split
    · exact failed_answered .refl
    · apply sized_answered
      constructor <;> rfl

theorem panHandleSetFuture_answered : Answered cpu event (cpu.panHandleSetFuture event) := by
  rw [PanCPU.panHandleSetFuture]
  split
  · exact failed_answered .refl
  · apply raw_answered
    constructor <;> rfl

theorem panHandleRevokeFuture_answered :
    Answered cpu event (cpu.panHandleRevokeFuture event) := by
  rw [PanCPU.panHandleRevokeFuture]
  split
  · exact failed_answered .refl
  · dsimp only
    split
    · apply raw_answered
      constructor <;> rfl
    · apply failed_answered
      constructor <;> rfl

theorem panHandleStatusFuture_answered :
    Answered cpu event (cpu.panHandleStatusFuture event) := by
  rw [PanCPU.panHandleStatusFuture]
  split
  · exact failed_answered .refl
  · apply push_answered .refl
    · rw [PanCPU.panBuildBasicSuccess, buildSuccess_eq, setSize_eq]
      rfl
    · rw [PanCPU.panBuildBasicSuccess, buildSuccess_eq, setSize_eq]
      rfl

/-- Reserve takes the token of the packet where none is reserved, and fails otherwise. -/
theorem panHandleReserve_eq : cpu.panHandleReserve event =
    if cpu.nic.isReserved then cpu.panBuildFailedToken event
    else { cpu with nic := { cpu.nic with token := event.token, isReserved := true } }.panBuildRawSuccess
      event := by
  rw [PanCPU.panHandleReserve, PanNicAPI.setToken]
  cases cpu.nic.isReserved <;> rfl

theorem panHandleReserve_answered (named : event.opcode = .Reserve) :
    Answered cpu event (cpu.panHandleReserve event) := by
  rw [panHandleReserve_eq]
  split
  · exact failed_answered .refl
  · have pushed : Answered cpu event (cpu.panBuildRawSuccess event) := raw_answered .refl
    exact ⟨pushed.reply, rfl, rfl, rfl, fun other => absurd named other, fun _ => rfl⟩

/-- Revoke is remembered where the token of the packet is the reserved one, and fails otherwise. -/
theorem panHandleRevoke_answered (named : event.opcode = .Revoke) :
    Answered cpu event (cpu.panHandleRevoke event) := by
  rw [PanCPU.panHandleRevoke]
  split
  · exact failed_answered .refl
  · have pushed : Answered cpu event (cpu.panBuildRawSuccess event) := raw_answered .refl
    exact ⟨pushed.reply, rfl, rfl, rfl, fun _ => rfl, fun other => absurd named other⟩

theorem handle_answered (request : event.opcode.requests = true) (atOnce : event.opcode.reads = false)
    (handled : cpu.handleNetPANMessage event rand fresh = .ok after) : Answered cpu event after := by
  rw [PanCPU.handleNetPANMessage] at handled
  cases named : event.opcode <;> simp only [named] at handled atOnce request
  case SyncGet => exact absurd atOnce (by decide)
  case AsyncGet => exact absurd atOnce (by decide)
  case SyncStreamGet => exact absurd atOnce (by decide)
  case AsyncStreamGet => exact absurd atOnce (by decide)
  case Success => exact absurd request (by decide)
  case Failed => exact absurd request (by decide)
  case PanRsvd => exact absurd request (by decide)
  case SyncPut => exact panHandlePut_answered handled
  case AsyncPut => exact panHandlePut_answered handled
  case SyncStreamPut => exact panHandlePut_answered handled
  case AsyncStreamPut => exact panHandlePut_answered handled
  case Halt => exact panHandleHalt_answered handled
  case ReadReg => exact panHandleReadReg_answered handled
  case WriteReg => exact panHandleWriteReg_answered handled
  case SingleStep => exact panHandleSingleStep_answered handled
  all_goals cases handled
  case Exec => exact panHandleExec_answered
  case Status => exact panHandleStatus_answered
  case Cancel => exact panHandleCancel_answered
  case Reserve => exact panHandleReserve_answered named
  case Revoke => exact panHandleRevoke_answered named
  case Resume => exact panHandleResume_answered
  case SetFuture => exact panHandleSetFuture_answered
  case RevokeFuture => exact panHandleRevokeFuture_answered
  case StatusFuture => exact panHandleStatusFuture_answered
  case BOTW => exact panHandleBOTW_answered

/-- The packet that goes back for a bad token is all that is left of the request. -/
theorem handle_refused (request : event.opcode.requests = true) (device : cpu.nic.isHost = false)
    (refused : cpu.nic.checkToken event.token = false) (notSyncGet : event.opcode ≠ .SyncGet)
    (notReserve : event.opcode ≠ .Reserve) :
    cpu.handleNetPANMessage event rand fresh = .ok (cpu.panBuildFailedToken event) := by
  have put : ∀ zeroAddr, cpu.panHandlePut event zeroAddr = .ok (cpu.panBuildFailedToken event) := by
    intro zeroAddr
    simp [PanCPU.panHandlePut, device, refused]
  have get : cpu.panHandleGet event rand = .ok (cpu.panBuildFailedToken event) := by
    simp [PanCPU.panHandleGet, device, refused]
  have hart : ∀ handle, cpu.withHart event handle = .ok (cpu.panBuildFailedToken event) := by
    intro handle
    simp [PanCPU.withHart, refused]
  rw [PanCPU.handleNetPANMessage]
  cases named : event.opcode <;> simp only [named] at request notSyncGet notReserve ⊢
  case SyncGet => exact absurd rfl notSyncGet
  case Reserve => exact absurd rfl notReserve
  case Success => exact absurd request (by decide)
  case Failed => exact absurd request (by decide)
  case PanRsvd => exact absurd request (by decide)
  case SyncPut => exact put true
  case AsyncPut => exact put true
  case SyncStreamPut => exact put false
  case AsyncStreamPut => exact put false
  case AsyncGet => exact get
  case SyncStreamGet => exact get
  case AsyncStreamGet => exact get
  case Halt => exact hart _
  case ReadReg => exact hart _
  case WriteReg => exact hart _
  case SingleStep => exact hart _
  case Exec => simp [PanCPU.panHandleExec, refused]
  case Status => simp [PanCPU.panHandleStatus, refused]
  case Cancel => simp [PanCPU.panHandleCancel, refused]
  case Revoke => simp [PanCPU.panHandleRevoke, refused]
  case Resume => simp [PanCPU.panHandleResume, refused]
  case SetFuture => simp [PanCPU.panHandleSetFuture, refused]
  case RevokeFuture => simp [PanCPU.panHandleRevokeFuture, refused]
  case StatusFuture => simp [PanCPU.panHandleStatusFuture, refused]
  case BOTW => simp [PanCPU.panHandleBOTW, refused]

theorem handle_reads (reads : event.opcode.reads = true)
    (accepted : cpu.nic.checkToken event.token = true) :
    cpu.handleNetPANMessage event rand fresh = cpu.pushRead event rand := by
  rw [PanCPU.handleNetPANMessage]
  cases named : event.opcode <;> simp only [named] at reads ⊢
  case SyncGet => simp [PanCPU.panHandleSyncGet, accepted]
  case AsyncGet => simp [PanCPU.panHandleAsyncGet, PanCPU.panHandleGet, accepted]
  case SyncStreamGet => simp [PanCPU.panHandleSyncStreamGet, PanCPU.panHandleGet, accepted]
  case AsyncStreamGet => simp [PanCPU.panHandleAsyncStreamGet, PanCPU.panHandleGet, accepted]
  all_goals exact absurd reads (by decide)

theorem pushRead_ok {core : Core} (first : cpu.procs.head? = some core) :
    cpu.pushRead event rand = .ok { cpu with readQueue := cpu.readQueue ++
      [⟨event.tag, event.size, randCost core.feature rand, event.src, event.addr⟩] } := by
  rw [PanCPU.pushRead, first]

end Handlers

/-- The accesses that the handler of an accepted request makes are there to be made. -/
def Accessible (cpu : PanCPU) (event : PanNicEvent) : Prop :=
  match event.opcode with
  | .SyncPut | .AsyncPut =>
    event.Packed ∧ (event.addr ≠ 0 → Usable cpu.mem event.addr.toNat event.size.toNat)
  | .SyncStreamPut | .AsyncStreamPut =>
    event.Packed ∧ Usable cpu.mem event.addr.toNat event.size.toNat
  | .ReadReg => ∀ core, cpu.procs[event.size.toNat]? = some core → core.file.isSome = true
  | .WriteReg => ∀ core, cpu.procs[event.size.toNat]? = some core →
      core.file.isSome = true ∧ event.Packed ∧ getNumBlocks event.size ≤ 1
  | _ => True

/-- A request that no handler gives up on: there are cores, and what it is allowed to access exists. -/
structure Ready (cpu : PanCPU) (event : PanNicEvent) : Prop where
  cores : 0 < cpu.procs.length
  counted : cpu.procs.length < 2 ^ 32
  accessible : cpu.nic.checkToken event.token = true → Accessible cpu event

section Returns
variable {cpu : PanCPU} {event : PanNicEvent} {rand : BitVec 32} {fresh : Nat → Buffer}

theorem pushRead_returns (cores : 0 < cpu.procs.length) :
    ∃ after, cpu.pushRead event rand = .ok after := by
  cases procs : cpu.procs with
  | nil => simp [procs] at cores
  | cons core rest => exact ⟨_, pushRead_ok (by rw [procs]; rfl)⟩

theorem panHandlePut_returns {zeroAddr : Bool} (packed : event.Packed)
    (usable : (zeroAddr = true → event.addr ≠ 0) →
      Usable cpu.mem event.addr.toNat event.size.toNat) :
    ∃ after, cpu.panHandlePut event zeroAddr = .ok after := by
  rw [PanCPU.panHandlePut, getData_packed packed]
  split
  · exact ⟨_, rfl⟩
  · dsimp only
    split_ifs with zero
    · exact ⟨_, rfl⟩
    · have here := usable (by simpa using zero)
      obtain ⟨mem, written, -⟩ := writeMem_valid here (bufferOf (event.data.take (getNumBlocks event.size)))
      rw [PanCPU.store, written]
      exact ⟨_, rfl⟩

theorem withHart_returns (ready : Ready cpu event) {handle : Core → Except PanFault PanCPU}
    (each : ∀ core, cpu.nic.checkToken event.token = true →
      cpu.procs[event.size.toNat]? = some core → ∃ after, handle core = .ok after) :
    ∃ after, cpu.withHart event handle = .ok after := by
  rw [PanCPU.withHart]
  cases accepted : cpu.nic.checkToken event.token with
  | false => exact ⟨_, rfl⟩
  | true =>
    simp only [Bool.not_true, Bool.false_eq_true, if_false]
    split
    · exact ⟨_, rfl⟩
    · rename_i named
      have inside : event.size.toNat < cpu.procs.length := by
        have cores := ready.cores
        have counted := ready.counted
        simp only [PanCPU.noHart, decide_eq_true_eq, not_lt] at named
        omega
      rw [List.getElem?_eq_getElem inside]
      exact each _ accepted (List.getElem?_eq_getElem inside)

theorem debugReadReg_returns {core : Core} (file : core.file.isSome = true) (idx : BitVec 32) :
    ∃ value, core.debugReadReg idx = .ok value := by
  obtain ⟨regs, found⟩ := Option.isSome_iff_exists.mp file
  rw [Core.debugReadReg, found]
  dsimp only
  split_ifs <;> exact ⟨_, rfl⟩

theorem debugWriteReg_returns {core : Core} (file : core.file.isSome = true) (idx : BitVec 32)
    (value : BitVec 64) : ∃ after, core.debugWriteReg idx value = .ok after := by
  obtain ⟨regs, found⟩ := Option.isSome_iff_exists.mp file
  rw [Core.debugWriteReg, found]
  dsimp only
  split_ifs <;> exact ⟨_, rfl⟩

theorem oneWord_returns (packed : event.Packed) (one : getNumBlocks event.size ≤ 1) :
    ∃ value, PanCPU.oneWord event = .ok value := by
  rw [PanCPU.oneWord, getData_packed packed]
  cases words : event.data.take (getNumBlocks event.size) with
  | nil => exact ⟨_, rfl⟩
  | cons word rest =>
    cases rest with
    | nil => exact ⟨_, rfl⟩
    | cons second rest =>
      have short := congrArg List.length words
      simp only [List.length_take, List.length_cons] at short
      omega

theorem handle_returns (request : event.opcode.requests = true) (device : cpu.nic.isHost = false)
    (ready : Ready cpu event) (reserved : event.opcode = .SyncGet →
      cpu.nic.checkToken event.token = true) :
    ∃ after, cpu.handleNetPANMessage event rand fresh = .ok after := by
  cases accepted : cpu.nic.checkToken event.token with
  | false =>
    by_cases reserve : event.opcode = .Reserve
    · simp [PanCPU.handleNetPANMessage, reserve]
    · have notSyncGet : event.opcode ≠ .SyncGet := fun named => by simp [reserved named] at accepted
      exact ⟨_, handle_refused request device accepted notSyncGet reserve⟩
  | true =>
    have accessible := ready.accessible accepted
    by_cases reads : event.opcode.reads = true
    · rw [handle_reads reads accepted]
      exact pushRead_returns ready.cores
    · rw [PanCPU.handleNetPANMessage]
      cases named : event.opcode <;>
        simp only [named, Accessible] at request reads accessible ⊢
      case SyncGet => exact absurd rfl reads
      case AsyncGet => exact absurd rfl reads
      case SyncStreamGet => exact absurd rfl reads
      case AsyncStreamGet => exact absurd rfl reads
      case Success => exact absurd request (by decide)
      case Failed => exact absurd request (by decide)
      case PanRsvd => exact absurd request (by decide)
      case SyncPut => exact panHandlePut_returns accessible.1 fun other => accessible.2 (other rfl)
      case AsyncPut => exact panHandlePut_returns accessible.1 fun other => accessible.2 (other rfl)
      case SyncStreamPut => exact panHandlePut_returns accessible.1 fun _ => accessible.2
      case AsyncStreamPut => exact panHandlePut_returns accessible.1 fun _ => accessible.2
      case Halt => exact withHart_returns ready fun core _ _ => ⟨_, rfl⟩
      case ReadReg =>
        refine withHart_returns ready fun core _ inside => ?_
        obtain ⟨value, found⟩ := debugReadReg_returns (accessible core inside) (event.addr.setWidth 32)
        rw [found]
        cases value <;> exact ⟨_, rfl⟩
      case WriteReg =>
        refine withHart_returns ready fun core _ inside => ?_
        obtain ⟨file, packed, one⟩ := accessible core inside
        obtain ⟨word, read⟩ := oneWord_returns packed one
        obtain ⟨written, found⟩ := debugWriteReg_returns file (event.addr.setWidth 32) word
        rw [read]
        dsimp only
        rw [found]
        cases written <;> exact ⟨_, rfl⟩
      case SingleStep =>
        refine withHart_returns ready fun core _ _ => ?_
        cases core.singleStepHart <;> exact ⟨_, rfl⟩
      all_goals exact ⟨_, rfl⟩

end Returns

section Send
variable {cpu after : PanCPU}

/-- Everything that was ever put into the mailbox, in order. -/
def PanCPU.posted (cpu : PanCPU) : List (PanNicEvent × Int) := cpu.net ++ cpu.sendMB

theorem Answered.posted {event : PanNicEvent} (answered : Answered cpu event after) :
    ∃ reply, after.posted = cpu.posted ++ [(reply, event.src)] ∧ reply.tag = event.tag ∧
      reply.opcode.responds = true := by
  obtain ⟨reply, pushed, tag, responds⟩ := answered.reply
  exact ⟨reply, by rw [PanCPU.posted, PanCPU.posted, answered.net, pushed, List.append_assoc], tag,
    responds⟩

/-- What one call of sendPANMessage does: it moves one packet, and then the revocation that waits. -/
structure Sent (cpu after : PanCPU) : Prop where
  posted : after.posted = cpu.posted
  readQueue : after.readQueue = cpu.readQueue
  isHost : after.nic.isHost = cpu.nic.isHost
  idle : cpu.sendMB = [] → after = cpu
  moved : cpu.sendMB ≠ [] → after.net.length = cpu.net.length + 1 ∧
    after.readyForRevoke = false ∧
    after.nic = if cpu.readyForRevoke then cpu.nic.revokeToken else cpu.nic

theorem sendPANMessage_sent (sent : cpu.sendPANMessage = .ok after) : Sent cpu after := by
  rw [PanCPU.sendPANMessage] at sent
  cases queued : cpu.sendMB with
  | nil =>
    rw [queued] at sent
    cases sent
    exact ⟨rfl, rfl, rfl, fun _ => rfl, fun filled => absurd queued filled⟩
  | cons packet rest =>
    obtain ⟨event, dest⟩ := packet
    simp only [queued, PanCPU.finishRevoke] at sent
    have posted : (cpu.net ++ [(event, dest)]) ++ rest = cpu.posted := by
      rw [PanCPU.posted, queued, List.append_assoc]
      rfl
    split at sent
    · rename_i waits
      split at sent
      · cases sent
      · cases sent
        refine ⟨posted, rfl, rfl, fun empty => absurd (queued.symm.trans empty) (by simp), fun _ => ?_⟩
        exact ⟨by simp, rfl, by rw [if_pos waits]⟩
    · rename_i waits
      cases sent
      refine ⟨posted, rfl, rfl, fun empty => absurd (queued.symm.trans empty) (by simp), fun _ => ?_⟩
      exact ⟨by simp, Bool.eq_false_iff.mpr waits, by rw [if_neg waits]⟩

theorem finishRevoke_returns (usable : cpu.readyForRevoke = true → Usable cpu.mem completionAddr 8) :
    ∃ after, cpu.finishRevoke = .ok after := by
  rw [PanCPU.finishRevoke]
  split
  · rename_i waits
    obtain ⟨mem, written, -⟩ := writeMem_valid (usable waits) (bytesOf (1 : BitVec 64))
    rw [written]
    exact ⟨_, rfl⟩
  · exact ⟨_, rfl⟩

theorem sendPANMessage_returns (usable : cpu.sendMB ≠ [] → cpu.readyForRevoke = true →
    Usable cpu.mem completionAddr 8) : ∃ after, cpu.sendPANMessage = .ok after := by
  rw [PanCPU.sendPANMessage]
  cases queued : cpu.sendMB with
  | nil => exact ⟨_, rfl⟩
  | cons packet rest =>
    exact finishRevoke_returns fun waits => usable (by simp [queued]) waits

end Send

section Read
variable {cpu after : PanCPU} {fresh : Nat → Buffer} {rqsts : List ReadRqst}

/-- The reads that a tick answers, and those it leaves. -/
def due (rqsts : List ReadRqst) : List ReadRqst := rqsts.filter fun rqst => rqst.cost == 0

def left (rqsts : List ReadRqst) : List ReadRqst := rqsts.filter fun rqst => rqst.cost != 0

def Answers (rqst : ReadRqst) (post : PanNicEvent × Int) : Prop :=
  post.2 = rqst.src ∧ post.1.tag = rqst.tag ∧ post.1.opcode.responds = true

theorem readReply_fields (cpu : PanCPU) (rqst : ReadRqst) (data : Buffer) :
    (cpu.readReply rqst data).tag = rqst.tag ∧ (cpu.readReply rqst data).opcode = .Success := by
  have stored : ∀ event : PanNicEvent, (event.setData (wordsOf data) rqst.size).tag = event.tag ∧
      (event.setData (wordsOf data) rqst.size).opcode = event.opcode := by
    intro event
    rw [PanNicEvent.setData]
    split_ifs <;> exact ⟨rfl, rfl⟩
  rw [PanCPU.readReply, buildSuccess_eq, setSize_eq]
  exact stored _

theorem answerReads_spec (answered : PanCPU.answerReads fresh cpu rqsts = .ok after) :
    ∃ replies, after.sendMB = cpu.sendMB ++ replies ∧ List.Forall₂ Answers (due rqsts) replies ∧
      after.net = cpu.net ∧ after.nic = cpu.nic ∧ after.readyForRevoke = cpu.readyForRevoke := by
  induction rqsts generalizing cpu with
  | nil =>
    cases answered
    exact ⟨[], (List.append_nil _).symm, .nil, rfl, rfl, rfl⟩
  | cons rqst rest ih =>
    rw [PanCPU.answerReads] at answered
    by_cases now : rqst.cost = 0
    · rw [if_pos now] at answered
      split at answered
      · cases answered
      · rename_i next read
        rw [PanCPU.answerRead] at read
        split at read
        · cases read
        · cases read
          obtain ⟨replies, pushed, each, net, nic, ready⟩ := ih answered
          rename_i data mem _
          have fields := readReply_fields cpu rqst data
          refine ⟨(cpu.readReply rqst data, rqst.src) :: replies, ?_, ?_, net, nic, ready⟩
          · rw [pushed]
            exact List.append_assoc ..
          · rw [due, List.filter_cons_of_pos (by simpa using now)]
            exact .cons ⟨rfl, fields.1, by rw [fields.2]; rfl⟩ each
    · rw [if_neg now] at answered
      rw [due, List.filter_cons_of_neg (by simpa using now)]
      exact ih answered

theorem answerReads_returns (usable : ∀ rqst ∈ rqsts, rqst.cost = 0 →
    Usable cpu.mem rqst.addr.toNat rqst.size.toNat) :
    ∃ after, PanCPU.answerReads fresh cpu rqsts = .ok after := by
  induction rqsts generalizing cpu with
  | nil => exact ⟨_, rfl⟩
  | cons rqst rest ih =>
    rw [PanCPU.answerReads]
    by_cases now : rqst.cost = 0
    · obtain ⟨mem, read, unseen⟩ :=
        readMemOld_valid (usable rqst (List.mem_cons_self ..) now) (fresh rest.length)
      rw [if_pos now, PanCPU.answerRead, read]
      refine ih fun other member zero => ?_
      exact (usable other (List.mem_cons_of_mem _ member) zero).of_unseen unseen
    · rw [if_neg now]
      exact ih fun other member => usable other (List.mem_cons_of_mem _ member)

/-- What one call of processPANMemRead does: it answers the reads that are due, in order. -/
structure Read (cpu after : PanCPU) : Prop where
  posted : ∃ replies, after.posted = cpu.posted ++ replies ∧
    List.Forall₂ Answers (due (cpu.readQueue.map PanCPU.elapse)) replies
  readQueue : after.readQueue = left (cpu.readQueue.map PanCPU.elapse)
  net : after.net = cpu.net
  nic : after.nic = cpu.nic
  ready : after.readyForRevoke = cpu.readyForRevoke

theorem processPANMemRead_read (read : cpu.processPANMemRead fresh = .ok after) : Read cpu after := by
  rw [PanCPU.processPANMemRead] at read
  split at read
  · cases read
  · rename_i next answered
    cases read
    obtain ⟨replies, pushed, each, net, nic, ready⟩ := answerReads_spec answered
    refine ⟨⟨replies, ?_, each⟩, rfl, net, nic, ready⟩
    rw [PanCPU.posted, PanCPU.posted, List.append_assoc, ← pushed, ← net]

theorem processPANMemRead_returns (usable : ∀ rqst ∈ due (cpu.readQueue.map PanCPU.elapse),
    Usable cpu.mem rqst.addr.toNat rqst.size.toNat) :
    ∃ after, cpu.processPANMemRead fresh = .ok after := by
  have each : ∀ rqst ∈ cpu.readQueue.map PanCPU.elapse, rqst.cost = 0 →
      Usable cpu.mem rqst.addr.toNat rqst.size.toNat := fun rqst member zero =>
    usable rqst (List.mem_filter.mpr ⟨member, by simpa using zero⟩)
  obtain ⟨after, answered⟩ := answerReads_returns each
  rw [PanCPU.processPANMemRead, answered]
  exact ⟨_, rfl⟩

theorem elapse_fields (rqst : ReadRqst) :
    (PanCPU.elapse rqst).tag = rqst.tag ∧ (PanCPU.elapse rqst).src = rqst.src := by
  rw [PanCPU.elapse]
  split_ifs <;> exact ⟨rfl, rfl⟩

-- A read that a tick does not make due has a cost to take one off.
theorem elapse_cost {rqst : ReadRqst} (remains : (PanCPU.elapse rqst).cost ≠ 0) :
    rqst.cost.toNat = (PanCPU.elapse rqst).cost.toNat + 1 := by
  rw [PanCPU.elapse] at remains ⊢
  split_ifs at remains ⊢ with positive
  · have some : rqst.cost.toNat ≠ 0 := fun zero => positive (BitVec.eq_of_toNat_eq zero)
    have bound := rqst.cost.isLt
    have one : (1 : BitVec 32).toNat = 1 := rfl
    rw [BitVec.toNat_sub]
    omega
  · exact absurd remains positive

end Read

inductive Input where
  | deliver (event : PanNicEvent) (rand : BitVec 32) (fresh : Nat → Buffer)
  | send
  | read (fresh : Nat → Buffer)
  | post (event : PanNicEvent) (dest : Int)
  | outside (mem : RevMem) (procs : List Core) (exec : PanExec) (zeroRqst : List (BitVec 32 × Buffer))

def step (cpu : PanCPU) : Input → Except PanFault PanCPU
  | .deliver event rand fresh => cpu.handleNetPANMessage event rand fresh
  | .send => cpu.sendPANMessage
  | .read fresh => cpu.processPANMemRead fresh
  | .post event dest => .ok (cpu.push event dest)
  | .outside mem procs exec zeroRqst =>
    .ok { cpu with mem := mem, procs := procs, pExec := exec, zeroRqst := zeroRqst }

end RevCPU.Pan
