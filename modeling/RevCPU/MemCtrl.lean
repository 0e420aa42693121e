import RevCPU.Atomic
/-!
`RevBasicMemCtrl` of RevMemCtrl.cc: the request queue, the per-tick limits, the requests sent on the
StandardMem interface with their split at cache lines, the response handlers, and the AMO table. A
`RevMemOp *` is a number that is never handed out again; target and hazard pointers are addresses of
host memory. Statistics are left out. A fatal error and the use of a null pointer end the run.
-/
namespace RevCPU.MemCtrl
open Mem MemRefine RegFile Atomic

inductive MemOp where
  | READ | WRITE | FLUSH | READLOCK | WRITEUNLOCK | LOADLINK | STORECOND | CUSTOM | FENCE
deriving Repr, DecidableEq

structure RevMemOp where
  ptr : Nat
  hart : Nat
  addr : Nat
  pAddr : Nat
  size : Nat
  inv : Bool
  op : MemOp
  customOpc : Nat
  splitRqst : Nat
  membuf : Buffer
  flags : BitVec 32
  target : Option Nat
  hazard : Option Nat

/-- What the counters `num_*`, the limits `max_*` and the tick's `t_max_*` count. -/
inductive Lane where
  | read | write | flush | llsc | readlock | writeunlock | custom
deriving Repr, DecidableEq

def MemOp.lane : MemOp → Option Lane
  | READ => some .read
  | WRITE => some .write
  | FLUSH => some .flush
  | READLOCK => some .readlock
  | WRITEUNLOCK => some .writeunlock
  | LOADLINK | STORECOND => some .llsc
  | CUSTOM => some .custom
  | FENCE => none

namespace RevMemOp

def isCacheable (op : RevMemOp) : Bool := op.flags &&& 0b10 == 0

def getStdFlags (op : RevMemOp) : BitVec 32 := op.flags &&& 0b1111111111111111

def getNonCacheFlags (op : RevMemOp) : BitVec 32 := op.flags &&& 0b1111111111111101

end RevMemOp

inductive Fault where
  | unknownResp
  | nullOp
  | nullTarget
  | nullHazard
  | badRqst
deriving Repr, DecidableEq

/-- The limits, the line size (0 without a cache), and what the compiled code gives for a shift of an
int by 32 or more, which the language leaves open. -/
structure Config where
  lineSize : Nat
  max : Lane → Nat
  maxOps : Nat
  overshift : Byte → Nat → BitVec 32

/-- A request on the interface; `op` is the operation it was built for. -/
structure Request where
  id : Nat
  op : RevMemOp
  addr : Nat
  size : Nat
  data : Buffer
  flags : BitVec 32

structure Ctrl where
  rqstQ : List RevMemOp
  requests : List Nat
  outstanding : List (Nat × RevMemOp)
  -- the address and the memory operation of each entry
  amoTable : List (Nat × Nat)
  num : Lane → BitVec 64
  numFence : Nat
  host : Nat → Byte
  hazards : Nat → Bool
  -- operations created so far, operations deleted, and everything sent, oldest first
  nextPtr : Nat
  deleted : List Nat
  nextId : Nat
  wire : List Request

def Ctrl.new (host : Nat → Byte) (hazards : Nat → Bool) : Ctrl where
  rqstQ := []
  requests := []
  outstanding := []
  amoTable := []
  num := fun _ => 0
  numFence := 0
  host := host
  hazards := hazards
  nextPtr := 0
  deleted := []
  nextId := 0
  wire := []

section Flags

def has (flags : BitVec 32) (bit : Nat) : Bool := flags &&& BitVec.ofNat 32 bit != 0

def F_ZEXT32 : Nat := 1 <<< 19
def F_ZEXT64 : Nat := 1 <<< 20

/-- The bitwise OR of the AMO flags. -/
def isAtomic (flags : BitVec 32) : Bool := flags &&& 0x3FE00000 != 0

end Flags

namespace Ctrl

def enqueue (ctrl : Ctrl) (op : RevMemOp) : Ctrl :=
  { ctrl with
      rqstQ := ctrl.rqstQ ++ [{ op with ptr := ctrl.nextPtr }]
      nextPtr := ctrl.nextPtr + 1 }

def setHazard (ctrl : Ctrl) (hazard : Nat) (value : Bool) : Ctrl :=
  { ctrl with hazards := Function.update ctrl.hazards hazard value }

/-- A new operation; the constructors of RevMemOp differ in the fields they set. -/
def newOp (hart addr pAddr size : Nat) (op : MemOp) (flags : BitVec 32) : RevMemOp where
  ptr := 0
  hart := hart
  addr := addr
  pAddr := pAddr
  size := size
  inv := false
  op := op
  customOpc := 0
  splitRqst := 1
  membuf := fun _ => 0
  flags := flags
  target := none
  hazard := none

def sendFLUSHRequest (ctrl : Ctrl) (hart addr pAddr size : Nat) (inv : Bool) (flags : BitVec 32) :
    Ctrl :=
  if size = 0 then ctrl
  else ctrl.enqueue { newOp hart addr pAddr size .FLUSH flags with inv := inv }

def sendREADRequest (ctrl : Ctrl) (hart addr pAddr size target hazard : Nat) (flags : BitVec 32) :
    Ctrl :=
  if size = 0 then ctrl
  else (ctrl.setHazard hazard true).enqueue
    { newOp hart addr pAddr size .READ flags with target := some target, hazard := some hazard }

def sendWRITERequest (ctrl : Ctrl) (hart addr pAddr size : Nat) (buffer : Buffer)
    (flags : BitVec 32) : Ctrl :=
  if size = 0 then ctrl
  else ctrl.enqueue { newOp hart addr pAddr size .WRITE flags with membuf := buffer }

/-- The first operation of an AMO is a READ, recorded in the table. -/
def sendAMORequest (ctrl : Ctrl) (hart addr pAddr size : Nat) (buffer : Buffer)
    (target hazard : Nat) (flags : BitVec 32) : Ctrl :=
  if size = 0 then ctrl
  else if isAtomic flags = false then ctrl
  else
    { (ctrl.setHazard hazard true).enqueue
        { newOp hart addr pAddr size .READ flags with
            membuf := buffer, target := some target, hazard := some hazard } with
      amoTable := ctrl.amoTable ++ [(addr, ctrl.nextPtr)] }

def sendREADLOCKRequest (ctrl : Ctrl) (hart addr pAddr size target hazard : Nat)
    (flags : BitVec 32) : Ctrl :=
  if size = 0 then ctrl
  else (ctrl.setHazard hazard true).enqueue
    { newOp hart addr pAddr size .READLOCK flags with target := some target, hazard := some hazard }

def sendWRITELOCKRequest (ctrl : Ctrl) (hart addr pAddr size : Nat) (buffer : Buffer)
    (flags : BitVec 32) : Ctrl :=
  if size = 0 then ctrl
  else ctrl.enqueue { newOp hart addr pAddr size .WRITEUNLOCK flags with membuf := buffer }

def sendLOADLINKRequest (ctrl : Ctrl) (hart addr pAddr size : Nat) (flags : BitVec 32) : Ctrl :=
  if size = 0 then ctrl else ctrl.enqueue (newOp hart addr pAddr size .LOADLINK flags)

def sendSTORECONDRequest (ctrl : Ctrl) (hart addr pAddr size : Nat) (buffer : Buffer)
    (flags : BitVec 32) : Ctrl :=
  if size = 0 then ctrl
  else ctrl.enqueue { newOp hart addr pAddr size .STORECOND flags with membuf := buffer }

def sendCUSTOMREADRequest (ctrl : Ctrl) (hart addr pAddr size target opc : Nat)
    (flags : BitVec 32) : Ctrl :=
  if size = 0 then ctrl
  else ctrl.enqueue
    { newOp hart addr pAddr size .CUSTOM flags with target := some target, customOpc := opc }

def sendCUSTOMWRITERequest (ctrl : Ctrl) (hart addr pAddr size : Nat) (buffer : Buffer) (opc : Nat)
    (flags : BitVec 32) : Ctrl :=
  if size = 0 then ctrl
  else ctrl.enqueue
    { newOp hart addr pAddr size .CUSTOM flags with membuf := buffer, customOpc := opc }

def sendFENCE (ctrl : Ctrl) (hart : Nat) : Ctrl := ctrl.enqueue (newOp hart 0 0 0 .FENCE 0)

end Ctrl

section Lines
variable (config : Config)

def hasCache : Bool := decide (0 < config.lineSize)

-- The loop walks down from the address to a multiple of the line size; the sums are of 64 bits.
def getBaseCacheLineSize (addr size : Nat) : Nat :=
  let baseCacheAddr := addr - addr % config.lineSize
  if addr = baseCacheAddr then
    if size < config.lineSize then size else config.lineSize
  else if (addr + size) % 2 ^ 64 ≤ (baseCacheAddr + config.lineSize) % 2 ^ 64 then size
  else baseCacheAddr + config.lineSize - addr

def getNumCacheLines (addr size : Nat) : Nat :=
  if hasCache config = false then 1
  else if addr % config.lineSize ≠ 0 then
    if size ≤ config.lineSize - addr % config.lineSize then 1
    else if size < config.lineSize then 2
    else size / config.lineSize + (if 1 < addr % config.lineSize then 1 else 0)
  else
    if size ≤ config.lineSize then 1 else size / config.lineSize + 1

/-- The requests behind the first one: address and size. -/
def tailPieces : Nat → Nat → Nat → List (Nat × Nat)
  | 0, _, _ => []
  | count + 1, newBase, bytesLeft =>
    let newSize := if bytesLeft < config.lineSize then bytesLeft else config.lineSize
    (newBase, newSize) :: tailPieces count ((newBase + newSize) % 2 ^ 64) (bytesLeft - newSize)

def cachePieces (addr size : Nat) : List (Nat × Nat) :=
  let numLines := getNumCacheLines config addr size
  let first := if 1 < numLines then getBaseCacheLineSize config addr size else size
  (addr, first) :: tailPieces config (numLines - 1) ((addr + first) % 2 ^ 64) (size - first)

end Lines

namespace Ctrl

def bump (ctrl : Ctrl) (lane : Lane) (change : BitVec 64) : Ctrl :=
  { ctrl with num := Function.update ctrl.num lane (ctrl.num lane + change) }

/-- One request: its id is recorded, it is sent and counted. -/
def issue (ctrl : Ctrl) (op : RevMemOp) (lane : Lane) (flags : BitVec 32) (addr size : Nat)
    (data : Buffer) : Ctrl :=
  bump { ctrl with
    requests := ctrl.requests ++ [ctrl.nextId]
    outstanding := ctrl.outstanding.filter (fun entry => entry.1 != ctrl.nextId) ++ [(ctrl.nextId, op)]
    wire := ctrl.wire ++ [⟨ctrl.nextId, op, addr, size, data, flags⟩]
    nextId := ctrl.nextId + 1 } lane 1

-- `curByte` is how much of the buffer the earlier requests took.
def issueAll (ctrl : Ctrl) (op : RevMemOp) (lane : Lane) (flags : BitVec 32) (curByte : Nat) :
    List (Nat × Nat) → Ctrl
  | [] => ctrl
  | (addr, size) :: rest =>
    issueAll (ctrl.issue op lane flags addr size fun index => op.membuf (curByte + index))
      op lane flags (curByte + size) rest

/-- `none` is the return value false. The flag is `Success`: without enough slots for all the lines
nothing is sent. -/
def buildCacheMemRqst (config : Config) (ctrl : Ctrl) (op : RevMemOp) : Option (Bool × Ctrl) :=
  match op.op.lane with
  | none => none
  | some lane =>
    let numLines := getNumCacheLines config op.addr op.size
    if (BitVec.ofNat 64 (config.max lane) - ctrl.num lane).toNat < numLines then some (false, ctrl)
    else
      some (true, ctrl.issueAll { op with splitRqst := numLines } lane op.getStdFlags 0
        (cachePieces config op.addr op.size))

def buildRawMemRqst (ctrl : Ctrl) (op : RevMemOp) (flags : BitVec 32) : Option Ctrl :=
  match op.op.lane with
  | none => none
  | some lane => some (ctrl.issue op lane flags op.addr op.size op.membuf)

def buildStandardMemRqst (config : Config) (ctrl : Ctrl) (op : RevMemOp) : Option (Bool × Ctrl) :=
  if hasCache config ∧ op.isCacheable then buildCacheMemRqst config ctrl op
  else if hasCache config ∧ op.isCacheable = false then
    (ctrl.buildRawMemRqst op op.getStdFlags).map fun ctrl => (true, ctrl)
  else (ctrl.buildRawMemRqst op op.getNonCacheFlags).map fun ctrl => (true, ctrl)

/-- isAQ for the operation behind `front`. -/
def isAQ (ctrl : Ctrl) (front : List RevMemOp) (op : RevMemOp) : Bool :=
  if ctrl.amoTable.isEmpty then false
  else if front.isEmpty then false
  else front.any fun earlier =>
    isAtomic earlier.flags && earlier.hart == op.hart && (earlier.flags &&& F_AQ) != 0

def isRL (ctrl : Ctrl) (front : List RevMemOp) (op : RevMemOp) : Bool :=
  if ctrl.amoTable.isEmpty then false
  else if front.isEmpty then false
  else isAtomic op.flags && (op.flags &&& F_RL) != 0 && front.any fun earlier =>
    earlier.hart == op.hart

def isPendingAMO (ctrl : Ctrl) (front : List RevMemOp) (op : RevMemOp) : Bool :=
  ctrl.isAQ front op || ctrl.isRL front op

end Ctrl

structure Tick where
  used : Lane → Nat
  ops : Nat

def Tick.new : Tick := ⟨fun _ => 0, 0⟩

namespace Tick

/-- isMemOpAvail, without the increment it makes when it answers true. -/
def avail (config : Config) (tick : Tick) (op : RevMemOp) : Bool :=
  match op.op.lane with
  | none => true
  | some lane => decide (tick.used lane < config.max lane)

def take (tick : Tick) (op : RevMemOp) : Tick :=
  match op.op.lane with
  | none => { tick with ops := tick.ops + 1 }
  | some lane =>
    ⟨Function.update tick.used lane (tick.used lane + 1), tick.ops + 1⟩

/-- `t_max_ops = max_ops`. -/
def saturate (config : Config) (tick : Tick) : Tick := { tick with ops := config.maxOps }

end Tick

namespace Ctrl

/-- The scan takes the first operation that is available; `front` are the ones it passed over. -/
def processNextRqst (config : Config) (tick : Tick) (ctrl : Ctrl) : Except Fault (Tick × Ctrl) :=
  match ctrl.rqstQ.span fun op => !tick.avail config op with
  | (_, []) => .ok (tick.saturate config, ctrl)
  | (front, op :: back) =>
    let tick := tick.take op
    if op.op = .FENCE then
      .ok (tick.saturate config,
        { ctrl with
            rqstQ := front ++ back
            numFence := ctrl.numFence + 1
            deleted := ctrl.deleted ++ [op.ptr] })
    else if ctrl.isPendingAMO front op then .ok (tick.saturate config, ctrl)
    else
      match ctrl.buildStandardMemRqst config op with
      | none => .error .badRqst
      | some (false, _) => .ok (tick.saturate config, ctrl)
      | some (true, sent) => .ok (tick, { sent with rqstQ := front ++ back })

/-- The loop of clockTick, at most once for each queued operation and once more. -/
def processLoop (config : Config) : Nat → Tick → Ctrl → Except Fault Ctrl
  | 0, _, ctrl => .ok ctrl
  | fuel + 1, tick, ctrl =>
    match ctrl.processNextRqst config tick with
    | .error fault => .error fault
    | .ok (tick, ctrl) => if tick.ops = config.maxOps then .ok ctrl else processLoop config fuel tick ctrl

-- Flushes are not asked about.
def waits (ctrl : Ctrl) : Bool :=
  ctrl.num .read + ctrl.num .write + ctrl.num .llsc + ctrl.num .readlock + ctrl.num .writeunlock +
    ctrl.num .custom != 0

def clockTick (config : Config) (ctrl : Ctrl) : Except Fault Ctrl :=
  if 0 < ctrl.numFence then
    if ctrl.waits then .ok ctrl
    else processLoop config (ctrl.rqstQ.length + 1) Tick.new { ctrl with numFence := ctrl.numFence - 1 }
  else processLoop config (ctrl.rqstQ.length + 1) Tick.new ctrl

end Ctrl

/-- A response: the request's id, address and size, and the bytes read. -/
structure Response where
  id : Nat
  pAddr : Nat
  size : Nat
  data : Buffer

section Extension
variable (host : Nat → Byte) (target : Nat)

def load32 : BitVec 32 := word32 fun index => host (target + index)

def load64 : BitVec 64 := word64 fun index => host (target + index)

def store32 (value : BitVec 32) : Nat → Byte := flatStore host target 4 (bytesOf value)

def store64 (value : BitVec 64) : Nat → Byte := flatStore host target 8 (bytesOf value)

/-- handleFlagResp on the bytes behind the target; the macros compute in 64 bits. -/
def extendTarget (flags : BitVec 32) : Nat → Byte :=
  if has flags F_SEXT32 then
    store32 host target ((sext ((load32 host target).setWidth 64) 32).setWidth 32)
  else if has flags F_SEXT64 then store64 host target (sext (load64 host target) 64)
  else if has flags F_ZEXT32 then
    store32 host target (((load32 host target).setWidth 64 &&& (1 <<< 32 - 1)).setWidth 32)
  else if has flags F_ZEXT64 then store64 host target (load64 host target &&& (1 <<< 63 - 1))
  else host

end Extension

section Amo

/-- `TmpBuf |= (buffer[i] << (i*8))` for `i < count`, where the shift is one of an int. -/
def operand (config : Config) (w : Nat) (buffer : Buffer) : Nat → BitVec w
  | 0 => 0
  | count + 1 =>
    operand config w buffer count |||
      (if 8 * count < 32 then (buffer count).setWidth 32 <<< (8 * count)
        else config.overshift (buffer count) (8 * count)).signExtend w

def modify {w : Nat} (flags : BitVec 32) (old data : BitVec w) : BitVec w :=
  match selected flags with
  | none => old
  | some op => op.combine old data

/-- The MODIFY of performAMO, in place. -/
def modifyTarget (config : Config) (host : Nat → Byte) (target : Nat) (op : RevMemOp) : Nat → Byte :=
  if op.size = 4 then
    store32 host target
      (modify op.flags (load32 host target) (operand config 32 op.membuf op.size))
  else
    store64 host target
      (modify op.flags (load64 host target) (operand config 64 op.membuf op.size))

end Amo

namespace Ctrl

def find (ctrl : Ctrl) (id : Nat) : Option RevMemOp :=
  (ctrl.outstanding.find? fun entry => entry.1 == id).map Prod.snd

def getNumSplitRqsts (ctrl : Ctrl) (op : RevMemOp) : Nat :=
  ctrl.outstanding.countP fun entry => entry.2.ptr == op.ptr

/-- The bytes of a response into the target; a loop that runs needs one. -/
def copyTarget (ctrl : Ctrl) (op : RevMemOp) (start count : Nat) (data : Buffer) :
    Except Fault Ctrl :=
  match op.target with
  | none => if count = 0 then .ok ctrl else .error .nullTarget
  | some target => .ok { ctrl with host := flatStore ctrl.host (target + start) count data }

def handleFlagResp (ctrl : Ctrl) (op : RevMemOp) : Except Fault Ctrl :=
  match op.target with
  | none =>
    if has op.flags F_SEXT32 || has op.flags F_SEXT64 || has op.flags F_ZEXT32 ||
        has op.flags F_ZEXT64 then .error .nullTarget
    else .ok ctrl
  | some target => .ok { ctrl with host := extendTarget ctrl.host target op.flags }

/-- The new WRITE carries the flags and the hazard of the READ and goes to the end of the queue. -/
def performAMO (config : Config) (ctrl : Ctrl) (op : RevMemOp) : Except Fault Ctrl :=
  match op.target, op.hazard with
  | none, _ => .error .nullTarget
  | some _, none => .error .nullHazard
  | some target, some hazard =>
    let host := modifyTarget config ctrl.host target op
    .ok
      { ({ ctrl with host := host }.setHazard hazard true).enqueue
          { newOp op.hart op.addr op.pAddr op.size .WRITE op.flags with
              membuf := fun index => host (target + index), hazard := some hazard } with
        amoTable := ctrl.amoTable ++ [(op.addr, ctrl.nextPtr)] }

def ownEntry (op : RevMemOp) (entry : Nat × Nat) : Bool := entry.1 == op.addr && entry.2 == op.ptr

-- The entry is erased after performAMO added its own.
def handleAMO (config : Config) (ctrl : Ctrl) (op : RevMemOp) : Except Fault Ctrl :=
  if ctrl.amoTable.any (ownEntry op) then
    match ctrl.performAMO config op with
    | .error fault => .error fault
    | .ok ctrl => .ok { ctrl with amoTable := ctrl.amoTable.eraseP (ownEntry op) }
  else .ok ctrl

/-- `*(op->getHazard()) = false`; `strict` where the pointer is not tested first. -/
def clearHazard (ctrl : Ctrl) (op : RevMemOp) (strict : Bool) : Except Fault Ctrl :=
  match op.hazard with
  | none => if strict then .error .nullHazard else .ok ctrl
  | some hazard => .ok (ctrl.setHazard hazard false)

def delete (ctrl : Ctrl) (op : RevMemOp) : Ctrl := { ctrl with deleted := ctrl.deleted ++ [op.ptr] }

/-- The response closes its operation. -/
def isLast (ctrl : Ctrl) (op : RevMemOp) : Bool :=
  decide (op.splitRqst ≤ 1) || ctrl.getNumSplitRqsts op == 1

def settle (ctrl : Ctrl) (id : Nat) (lane : Lane) : Ctrl :=
  { ctrl with outstanding := ctrl.outstanding.filter fun entry => entry.1 != id }.bump lane (-1)

/-- The opening lines of every handler. -/
def claim (ctrl : Ctrl) (id : Nat) : Except Fault (RevMemOp × Ctrl) :=
  if id ∈ ctrl.requests then
    match ctrl.find id with
    | none => .error .nullOp
    | some op => .ok (op, { ctrl with requests := ctrl.requests.erase id })
  else .error .unknownResp

/-- The last response of a read: extension, MODIFY, hazard. -/
def finishRead (config : Config) (ctrl : Ctrl) (op : RevMemOp) : Except Fault Ctrl :=
  match ctrl.handleFlagResp op with
  | .error fault => .error fault
  | .ok extended =>
    match (if ctrl.amoTable.any (ownEntry op) then extended.handleAMO config op else .ok extended) with
    | .error fault => .error fault
    | .ok modified =>
      match modified.clearHazard op (decide (1 < op.splitRqst)) with
      | .error fault => .error fault
      | .ok cleared => .ok (cleared.delete op)

-- The offset of a split response passes through a uint8_t.
def handleReadResp (config : Config) (ctrl : Ctrl) (ev : Response) : Except Fault Ctrl :=
  match ctrl.claim ev.id with
  | .error fault => .error fault
  | .ok (op, ctrl) =>
    let start := if 1 < op.splitRqst then (ev.pAddr + 2 ^ 64 - op.addr) % 2 ^ 8 else 0
    let count := if 1 < op.splitRqst then ev.size else op.size
    match ctrl.copyTarget op start count ev.data with
    | .error fault => .error fault
    | .ok ctrl =>
      match (if ctrl.isLast op then ctrl.finishRead config op else .ok ctrl) with
      | .error fault => .error fault
      | .ok ctrl => .ok (ctrl.settle ev.id .read)

def handleWriteResp (ctrl : Ctrl) (ev : Response) : Except Fault Ctrl :=
  match ctrl.claim ev.id with
  | .error fault => .error fault
  | .ok (op, ctrl) =>
    let ctrl := { ctrl with amoTable := ctrl.amoTable.filter fun entry => !ownEntry op entry }
    if ctrl.isLast op then
      match ctrl.clearHazard op false with
      | .error fault => .error fault
      | .ok ctrl => .ok ((ctrl.delete op).settle ev.id .write)
    else .ok (ctrl.settle ev.id .write)

/-- handleFlushResp and handleCustomResp. -/
def handlePlainResp (lane : Lane) (ctrl : Ctrl) (ev : Response) : Except Fault Ctrl :=
  match ctrl.claim ev.id with
  | .error fault => .error fault
  | .ok (op, ctrl) =>
    .ok ((if ctrl.isLast op then ctrl.delete op else ctrl).settle ev.id lane)

def handleFlushResp := handlePlainResp .flush

def handleCustomResp := handlePlainResp .custom

end Ctrl
end RevCPU.MemCtrl
