import RevCPU.PanExec
import RevCPU.PanNet
import Mathlib.Data.List.Destutter
/-!
The PAN side of RevCPU.cc: the packet handlers, the read queue and the outgoing mailbox. The memory is
the one without a controller. WriteMem, ReadMem and PANHandleZeroAddrPut return true or end the
simulation, so the branches for a false return are not here, and a response that is built always comes
out. A buffer that the code allocates and does not fill is an argument.
-/
namespace RevCPU.Mem.RevMem

-- push_back, std::sort and std::unique.
def setFuture (mem : RevMem) (addr : Nat) : RevMem :=
  { mem with futureRes :=
      ((mem.futureRes ++ [addr]).mergeSort fun a b => decide (a ≤ b)).destutter (· ≠ ·) }

def statusFuture (mem : RevMem) (addr : Nat) : Bool := decide (addr ∈ mem.futureRes)

end RevCPU.Mem.RevMem

namespace RevCPU.Pan
open Feature Mem RegFile

inductive PanFault where
  | mem (fault : MemFault)
  | fatal
  | outOfRange   -- an index past a vector's or an array's end
deriving Repr, DecidableEq

/-- What the handlers use of a RevProc. `file` is GetRegFile(HartToExec), and `none` where that
throws; `pc` is GetPC(). -/
structure Core where
  feature : RevFeature
  halted : Bool
  singleStep : Bool
  file : Option RevRegFile
  pc : BitVec 64

namespace Core
variable (core : Core)

def halt : Core := if core.halted then core else { core with halted := true, singleStep := false }

/-- `none` where the core was not halted. -/
def resume : Option Core :=
  if core.halted then some { core with halted := false, singleStep := false } else none

/-- `none` where the core is neither stepping nor halted. -/
def singleStepHart : Option Core :=
  if core.singleStep then some core
  else if core.halted then some { core with halted := false, singleStep := true }
  else none

/-- `_REV_NUM_REGS_`. -/
def numRegs : Nat := 32

def debugReadReg (idx : BitVec 32) : Except PanFault (Option (BitVec 64)) :=
  match core.file with
  | none => .error .outOfRange
  | some regs =>
    if core.halted = false then .ok none
    else if numRegs - 1 < idx.toNat then .ok none
    else if core.feature.xlen = 32 then .ok (some ((regs.x32 (idx.setWidth 8)).setWidth 64))
    else .ok (some (regs.x64 (idx.setWidth 8)))

def debugWriteReg (idx : BitVec 32) (value : BitVec 64) : Except PanFault (Option Core) :=
  match core.file with
  | none => .error .outOfRange
  | some regs =>
    if core.halted = false then .ok none
    else if numRegs - 1 < idx.toNat then .ok none
    else if core.feature.xlen = 32 then
      .ok (some { core with file := some (regs.setX32 (idx.setWidth 8) (value.setWidth 32)) })
    else .ok (some { core with file := some (regs.setX64 (idx.setWidth 8) value) })

end Core

-- The options refuse a bound of 0.
def randCost (feature : RevFeature) (rand : BitVec 32) : BitVec 32 :=
  rand % feature.maxCost + feature.minCost

structure TrackGet where
  tag : BitVec 8
  addr : BitVec 64
  size : BitVec 32
deriving DecidableEq, Repr

structure ReadRqst where
  tag : BitVec 8
  size : BitVec 32
  cost : BitVec 32
  src : Int
  addr : BitVec 64
deriving DecidableEq, Repr

def completionAddr : Nat := 0x30000000
def rdmaMailbox : Nat := 0x30000008
def rdmaMaxEntries : Nat := 255

/-- `_PAN_ENTRY_INJECTED_` and the two marks of a completed entry. -/
def entryInjected : BitVec 64 := 1
def entryDoneSuccess : BitVec 64 := 3
def entryDoneFailed : BitVec 64 := 4

/-- `net` is what `PNic->send` was given. A host has no execution queue and never uses `pExec`. -/
structure PanCPU where
  address : Int
  nic : PanNicAPI
  sendMB : List (PanNicEvent × Int)
  trackTags : List (BitVec 8 × Int)
  trackGets : List TrackGet
  readQueue : List ReadRqst
  zeroRqst : List (BitVec 32 × Buffer)
  readyForRevoke : Bool
  revokeHasArrived : Bool
  pExec : PanExec
  mem : RevMem
  procs : List Core
  symbolStart : BitVec 64   -- Loader->GetSymbolAddr("_start")
  net : List (PanNicEvent × Int)

namespace PanCPU
variable (cpu : PanCPU)

section Build
variable (event : PanNicEvent)

def push (reply : PanNicEvent) (dest : Int) : PanCPU :=
  { cpu with sendMB := cpu.sendMB ++ [(reply, dest)] }

def panBuildFailedToken : PanCPU :=
  cpu.push ((PanNicEvent.new.setSrc cpu.address).buildFailed event.token event.tag) event.src

def panBuildRawSuccess : PanCPU :=
  cpu.push ((PanNicEvent.new.setSrc cpu.address).buildSuccess event.token event.tag) event.src

/-- The new packet `rtn` after PANBuildBasicSuccess. -/
def panBuildBasicSuccess (rtn : PanNicEvent) : PanNicEvent :=
  (rtn.setSrc cpu.address).buildSuccess event.token event.tag

/-- The last lines of a handler that sets the size of a new packet before it builds it. -/
def replySized (size : BitVec 32) : PanCPU :=
  cpu.push (cpu.panBuildBasicSuccess event ((PanNicEvent.new.setSize size).setSrc cpu.address))
    event.src

end Build

section Read
variable (event : PanNicEvent) (rand : BitVec 32)

/-- `ReadQueue.push_back`, with the cost drawn by the first core. -/
def pushRead : Except PanFault PanCPU :=
  match cpu.procs.head? with
  | none => .error .outOfRange
  | some core =>
    .ok { cpu with readQueue := cpu.readQueue ++
      [⟨event.tag, event.size, randCost core.feature rand, event.src, event.addr⟩] }

/-- The body of the three get handlers that leave after a bad token. -/
def panHandleGet : Except PanFault PanCPU :=
  if !cpu.nic.isHost && !cpu.nic.checkToken event.token then .ok (cpu.panBuildFailedToken event)
  else cpu.pushRead event rand

-- The failed response is built here as well, but there is no return behind it.
def panHandleSyncGet : Except PanFault PanCPU :=
  if !cpu.nic.isHost && !cpu.nic.checkToken event.token then
    (cpu.panBuildFailedToken event).pushRead event rand
  else cpu.pushRead event rand

def panHandleAsyncGet : Except PanFault PanCPU := cpu.panHandleGet event rand

def panHandleSyncStreamGet : Except PanFault PanCPU := cpu.panHandleGet event rand

def panHandleAsyncStreamGet : Except PanFault PanCPU := cpu.panHandleGet event rand

end Read

section Write
variable (event : PanNicEvent)

def panHandleZeroAddrPut (size : BitVec 32) (data : Buffer) : PanCPU :=
  { cpu with zeroRqst := cpu.zeroRqst ++ [(size, data)] }

def store (size : BitVec 32) (data : Buffer) : Except PanFault PanCPU :=
  match cpu.mem.writeMem 0 event.addr.toNat size.toNat data with
  | .error fault => .error (.mem fault)
  | .ok mem => .ok { cpu with mem := mem }

/-- The body of the two handlers of a put; `zeroAddr` is whether a zero address is special. -/
def panHandlePut (zeroAddr : Bool) : Except PanFault PanCPU :=
  if !cpu.nic.isHost && !cpu.nic.checkToken event.token then .ok (cpu.panBuildFailedToken event)
  else
    match event.getData with
    | none => .error .outOfRange
    | some words =>
      if zeroAddr && event.addr == 0 then
        .ok ((cpu.panHandleZeroAddrPut event.size (bufferOf words)).replySized event event.size)
      else
        match cpu.store event event.size (bufferOf words) with
        | .error fault => .error fault
        | .ok cpu => .ok (cpu.replySized event event.size)

def panHandleSyncPut : Except PanFault PanCPU := cpu.panHandlePut event true

def panHandleAsyncPut : Except PanFault PanCPU := cpu.panHandlePut event true

def panHandleSyncStreamPut : Except PanFault PanCPU := cpu.panHandlePut event false

def panHandleAsyncStreamPut : Except PanFault PanCPU := cpu.panHandlePut event false

end Write

section Queue
variable (event : PanNicEvent)

def panHandleExec : PanCPU :=
  if !cpu.nic.checkToken event.token then cpu.panBuildFailedToken event
  else
    match cpu.pExec.addEntry event.addr with
    | none => cpu.panBuildFailedToken event
    | some (idx, exec) => { cpu with pExec := exec }.replySized event (BitVec.ofNat 32 idx)

/-- The value of `PanExec::PanStatus` as the enumeration has it. -/
def statusCode : PanStatus → BitVec 32
  | .QExec => 0
  | .QValid => 1
  | .QNull => 13
  | .QError => 0b0000000011111111

def panHandleStatus : PanCPU :=
  if !cpu.nic.checkToken event.token then cpu.panBuildFailedToken event
  else
    let status := cpu.pExec.statusEntry event.size.toNat
    if status = .QNull then cpu.panBuildFailedToken event
    else cpu.replySized event (statusCode status)

def panHandleCancel : PanCPU :=
  if !cpu.nic.checkToken event.token then cpu.panBuildFailedToken event
  else
    match cpu.pExec.removeEntry event.size.toNat with
    | none => cpu.panBuildFailedToken event
    | some exec => { cpu with pExec := exec }.replySized event event.size

-- The arguments are not marshalled.
def panHandleBOTW : PanCPU :=
  if !cpu.nic.checkToken event.token then cpu.panBuildFailedToken event
  else
    match cpu.pExec.addEntry (event.offset.setWidth 64 + cpu.symbolStart) with
    | none => cpu.panBuildFailedToken event
    | some (idx, exec) => { cpu with pExec := exec }.replySized event (BitVec.ofNat 32 idx)

end Queue

section Reserve
variable (event : PanNicEvent)

def panHandleReserve : PanCPU :=
  if cpu.nic.isReserved then cpu.panBuildFailedToken event
  else
    match cpu.nic.setToken event.token with
    | none => cpu.panBuildFailedToken event
    | some nic => { cpu with nic := nic }.panBuildRawSuccess event

def panHandleRevoke : PanCPU :=
  if !cpu.nic.checkToken event.token then cpu.panBuildFailedToken event
  else { cpu with readyForRevoke := true }.panBuildRawSuccess event

end Reserve

section Harts
variable (event : PanNicEvent)

/-- `HART > (numCores-1)`, in unsigned arithmetic. -/
def noHart : Bool := decide ((cpu.procs.length + 2 ^ 32 - 1) % 2 ^ 32 < event.size.toNat)

/-- The core that the packet names, behind the checks that the handlers of a hart begin with. -/
def withHart (handle : Core → Except PanFault PanCPU) : Except PanFault PanCPU :=
  if !cpu.nic.checkToken event.token then .ok (cpu.panBuildFailedToken event)
  else if cpu.noHart event then .ok (cpu.panBuildFailedToken event)
  else
    match cpu.procs[event.size.toNat]? with
    | none => .error .outOfRange
    | some core => handle core

def setCore (core : Core) : PanCPU := { cpu with procs := cpu.procs.set event.size.toNat core }

def panHandleHalt : Except PanFault PanCPU :=
  cpu.withHart event fun core => .ok ((cpu.setCore event core.halt).panBuildRawSuccess event)

-- The cores that can resume do so even where another one cannot.
def panHandleResume : PanCPU :=
  if !cpu.nic.checkToken event.token then cpu.panBuildFailedToken event
  else
    let resumed := { cpu with procs := cpu.procs.map fun core : Core => core.resume.getD core }
    if cpu.procs.any fun core : Core => core.resume.isNone then resumed.panBuildFailedToken event
    else resumed.panBuildRawSuccess event

def panHandleReadReg : Except PanFault PanCPU :=
  cpu.withHart event fun core =>
    match core.debugReadReg (event.addr.setWidth 32) with
    | .error fault => .error fault
    | .ok none => .ok (cpu.panBuildFailedToken event)
    | .ok (some value) =>
      let width : BitVec 32 := if core.feature.xlen = 32 then 4 else 8
      let command := ((PanNicEvent.new.setData (fun _ => value) width).setSize width).setSrc cpu.address
      .ok (cpu.push (cpu.panBuildBasicSuccess event command) event.src)

/-- `getData` into one word, which is 0 before. -/
def oneWord : Except PanFault (BitVec 64) :=
  match event.getData with
  | none => .error .outOfRange
  | some [] => .ok 0
  | some [value] => .ok value
  | some _ => .error .outOfRange

def panHandleWriteReg : Except PanFault PanCPU :=
  cpu.withHart event fun core =>
    match oneWord event with
    | .error fault => .error fault
    | .ok value =>
      match core.debugWriteReg (event.addr.setWidth 32) value with
      | .error fault => .error fault
      | .ok none => .ok (cpu.panBuildFailedToken event)
      | .ok (some core) => .ok ((cpu.setCore event core).panBuildRawSuccess event)

def panHandleSingleStep : Except PanFault PanCPU :=
  cpu.withHart event fun core =>
    match core.singleStepHart with
    | none => .ok (cpu.panBuildFailedToken event)
    | some stepping =>
      let command := (cpu.panBuildBasicSuccess event .new).setAddr core.pc
      .ok ((cpu.setCore event stepping).push (command.setSrc cpu.address) event.src)

end Harts

section Futures
variable (event : PanNicEvent)

def panHandleSetFuture : PanCPU :=
  if !cpu.nic.checkToken event.token then cpu.panBuildFailedToken event
  else { cpu with mem := cpu.mem.setFuture event.addr.toNat }.panBuildRawSuccess event

def panHandleRevokeFuture : PanCPU :=
  if !cpu.nic.checkToken event.token then cpu.panBuildFailedToken event
  else
    let (found, mem) := cpu.mem.revokeFuture event.addr.toNat
    if found then { cpu with mem := mem }.panBuildRawSuccess event
    else { cpu with mem := mem }.panBuildFailedToken event

def panHandleStatusFuture : PanCPU :=
  if !cpu.nic.checkToken event.token then cpu.panBuildFailedToken event
  else
    let command := cpu.panBuildBasicSuccess event .new
    let sized := command.setSize (if cpu.mem.statusFuture event.addr.toNat then 1 else 0)
    cpu.push (sized.setSrc cpu.address) event.src

end Futures

section Responses
variable (event : PanNicEvent)

/-- ReadU64; `value` is its variable, which nothing sets before the read. -/
def readU64 (mem : RevMem) (addr : BitVec 64) (value : Buffer) : Except MemFault (BitVec 64 × RevMem) :=
  match mem.readMemOld addr.toNat 8 value with
  | .error fault => .error fault
  | .ok (data, mem) => .ok (wordsOf data 0, mem)

/-- The rest of the walk over the mailbox, with `left` entries to visit. -/
def signalFrom (mem : RevMem) (tag : BitVec 8) (sig : BitVec 64) (fresh : Nat → Buffer) (addr : Nat) :
    Nat → Except MemFault RevMem
  | 0 => .ok mem
  | left + 1 =>
    match mem.readMemOld addr 24 (fun _ => 0) with
    | .error fault => .error fault
    | .ok (payload, mem) =>
      match readU64 mem (wordsOf payload 2) (fresh left) with
      | .error fault => .error fault
      | .ok (tagPayload, mem) =>
        if (tagPayload >>> 32).setWidth 8 = tag ∧ wordsOf payload 0 = entryInjected then
          mem.writeMem 0 addr 8 (bytesOf sig)
        else signalFrom mem tag sig fresh (addr + 24) left

def panSignalMsgRecv (tag : BitVec 8) (sig : BitVec 64) (fresh : Nat → Buffer) :
    Except PanFault PanCPU :=
  match signalFrom cpu.mem tag sig fresh rdmaMailbox rdmaMaxEntries with
  | .error fault => .error (.mem fault)
  | .ok mem => .ok { cpu with mem := mem }

/-- The loop over the outstanding gets, which are `before ++ gets` with the iterator at the head of
`gets`. The test assigns the tag to the get it looks at, and an erased get is replaced under the
iterator by the one behind it, which the increment then steps over; behind the last get there is
nothing to step over. `fresh` is the buffer allocated for the write, which nothing fills. -/
def deliverGets (mem : RevMem) (tag : BitVec 8) (fresh : Nat → Buffer) (before : List TrackGet) :
    List TrackGet → Except PanFault (List TrackGet × RevMem)
  | [] => .ok (before, mem)
  | get :: rest =>
    if tag = 0 then deliverGets mem tag fresh (before ++ [{ get with tag := tag }]) rest
    else
      match mem.writeMem 0 get.addr.toNat get.size.toNat (fresh rest.length) with
      | .error fault => .error (.mem fault)
      | .ok mem =>
        match rest with
        | [] => if before = [] then .ok ([], mem) else .error .outOfRange
        | next :: rest => deliverGets mem tag fresh (before ++ [next]) rest

/-- The host thread is told, and the tag is no longer outstanding. -/
def closeTag (sig : BitVec 64) (fresh : Nat → Buffer) : Except PanFault PanCPU :=
  match cpu.panSignalMsgRecv event.tag sig fresh with
  | .error fault => .error fault
  | .ok cpu => .ok { cpu with trackTags := cpu.trackTags.erase (event.tag, event.src) }

def panHandleSuccess (fresh : Nat → Buffer) : Except PanFault PanCPU :=
  if (event.tag, event.src) ∉ cpu.trackTags then .error .fatal
  else
    match deliverGets cpu.mem event.tag fresh [] cpu.trackGets with
    | .error fault => .error fault
    | .ok (gets, mem) =>
      { cpu with mem := mem, trackGets := gets }.closeTag event entryDoneSuccess fun left =>
        fresh (cpu.trackGets.length + left)

def panHandleFailed (fresh : Nat → Buffer) : Except PanFault PanCPU :=
  if (event.tag, event.src) ∉ cpu.trackTags then .error .fatal
  else cpu.closeTag event entryDoneFailed fresh

end Responses

def handleNetPANMessage (event : PanNicEvent) (rand : BitVec 32) (fresh : Nat → Buffer) :
    Except PanFault PanCPU :=
  match event.opcode with
  | .SyncGet => cpu.panHandleSyncGet event rand
  | .SyncPut => cpu.panHandleSyncPut event
  | .AsyncGet => cpu.panHandleAsyncGet event rand
  | .AsyncPut => cpu.panHandleAsyncPut event
  | .SyncStreamGet => cpu.panHandleSyncStreamGet event rand
  | .SyncStreamPut => cpu.panHandleSyncStreamPut event
  | .AsyncStreamGet => cpu.panHandleAsyncStreamGet event rand
  | .AsyncStreamPut => cpu.panHandleAsyncStreamPut event
  | .Exec => .ok (cpu.panHandleExec event)
  | .Status => .ok (cpu.panHandleStatus event)
  | .Cancel => .ok (cpu.panHandleCancel event)
  | .Reserve => .ok (cpu.panHandleReserve event)
  | .Revoke => .ok (cpu.panHandleRevoke event)
  | .Halt => cpu.panHandleHalt event
  | .Resume => .ok (cpu.panHandleResume event)
  | .ReadReg => cpu.panHandleReadReg event
  | .WriteReg => cpu.panHandleWriteReg event
  | .SingleStep => cpu.panHandleSingleStep event
  | .SetFuture => .ok (cpu.panHandleSetFuture event)
  | .RevokeFuture => .ok (cpu.panHandleRevokeFuture event)
  | .StatusFuture => .ok (cpu.panHandleStatusFuture event)
  | .BOTW => .ok (cpu.panHandleBOTW event)
  | .Success => cpu.panHandleSuccess event fresh
  | .Failed => cpu.panHandleFailed event fresh
  | .PanRsvd => .error .fatal

def handleHostPANMessage (event : PanNicEvent) (rand : BitVec 32) (fresh : Nat → Buffer) :
    Except PanFault PanCPU :=
  match event.opcode with
  | .Success => cpu.panHandleSuccess event fresh
  | .Failed => cpu.panHandleFailed event fresh
  | .SyncGet => cpu.panHandleSyncGet event rand
  | .SyncPut => cpu.panHandleSyncPut event
  | .AsyncGet => cpu.panHandleAsyncGet event rand
  | .AsyncPut => cpu.panHandleAsyncPut event
  | .SyncStreamGet => cpu.panHandleSyncStreamGet event rand
  | .SyncStreamPut => cpu.panHandleSyncStreamPut event
  | .AsyncStreamGet => cpu.panHandleAsyncStreamGet event rand
  | .AsyncStreamPut => cpu.panHandleAsyncStreamPut event
  | _ => .error .fatal

def handlePANMessage (event : PanNicEvent) (rand : BitVec 32) (fresh : Nat → Buffer) :
    Except PanFault PanCPU :=
  if cpu.nic.isHost then cpu.handleHostPANMessage event rand fresh
  else cpu.handleNetPANMessage event rand fresh

/-- The revocation at the end of sendPANMessage. -/
def finishRevoke : Except PanFault PanCPU :=
  if cpu.readyForRevoke then
    match cpu.mem.writeMem 0 completionAddr 8 (bytesOf (1 : BitVec 64)) with
    | .error fault => .error (.mem fault)
    | .ok mem =>
      .ok { cpu with
        mem := mem, nic := cpu.nic.revokeToken, readyForRevoke := false, revokeHasArrived := true }
  else .ok cpu

def sendPANMessage : Except PanFault PanCPU :=
  match cpu.sendMB with
  | [] => .ok cpu
  | (event, dest) :: rest =>
    let tags := if event.opcode.responds then cpu.trackTags else cpu.trackTags ++ [(event.tag, dest)]
    finishRevoke { cpu with net := cpu.net ++ [(event, dest)], trackTags := tags, sendMB := rest }

section ReadQueue
variable (fresh : Nat → Buffer)

/-- The count of one read after a tick. -/
def elapse (rqst : ReadRqst) : ReadRqst :=
  if rqst.cost ≠ 0 then { rqst with cost := rqst.cost - 1 } else rqst

/-- The packet that returns the data of a read. -/
def readReply (rqst : ReadRqst) (data : Buffer) : PanNicEvent :=
  let command := (PanNicEvent.new.buildSuccess cpu.nic.token rqst.tag).setSize rqst.size
  (command.setData (wordsOf data) rqst.size).setSrc cpu.address

def answerRead (rqst : ReadRqst) (target : Buffer) : Except PanFault PanCPU :=
  match cpu.mem.readMemOld rqst.addr.toNat rqst.size.toNat target with
  | .error fault => .error (.mem fault)
  | .ok (data, mem) => .ok ({ cpu with mem := mem }.push (cpu.readReply rqst data) rqst.src)

/-- The reads whose count is 0, answered in the order of the queue. -/
def answerReads (cpu : PanCPU) : List ReadRqst → Except PanFault PanCPU
  | [] => .ok cpu
  | rqst :: rest =>
    if rqst.cost = 0 then
      match cpu.answerRead rqst (fresh rest.length) with
      | .error fault => .error fault
      | .ok cpu => answerReads cpu rest
    else answerReads cpu rest

def processPANMemRead : Except PanFault PanCPU :=
  match answerReads fresh cpu (cpu.readQueue.map elapse) with
  | .error fault => .error fault
  | .ok after =>
    .ok { after with readQueue := (cpu.readQueue.map elapse).filter fun rqst => rqst.cost != 0 }

end ReadQueue
end PanCPU
end RevCPU.Pan
