import RevCPU.PanCPU
/-!
The RDMA mailbox of RevCPU.cc: the commands that a program lays out in its memory, the events they become,
and the scan of the slots that point to them. The saved slot and the bound on the events of a call are
arguments here. `fresh` gives the variables that ReadU64 reads into and the buffer for the data, which
nothing sets before.
-/
namespace RevCPU.Pan
open Mem RegFile

/-- The cases of the switch over the opcode of a command. -/
def PanOpcode.commands : List PanOpcode :=
  [.SyncGet, .SyncPut, .AsyncGet, .AsyncPut, .SyncStreamGet, .SyncStreamPut, .AsyncStreamGet,
    .AsyncStreamPut, .Exec, .Status, .Cancel, .Reserve, .Revoke, .Halt, .Resume, .ReadReg, .WriteReg,
    .SingleStep, .SetFuture, .RevokeFuture, .StatusFuture, .Success, .Failed, .BOTW]

def PanOpcode.ofCode (code : BitVec 8) : Option PanOpcode := commands.find? fun opcode => opcode.code == code

structure Header where
  code : BitVec 8
  token : BitVec 32
  tag : BitVec 8
  varArgs : BitVec 8
  size : BitVec 32
  offset : BitVec 32
deriving DecidableEq

/-- `none` for the packet type that is reserved. -/
def decodeHeader (payload : BitVec 64) : Option Header :=
  let token := (payload &&& 0xffffffff).setWidth 32
  let tag := ((payload >>> 32) &&& 0b11111111).setWidth 8
  let code : BitVec 8 := ((payload >>> 40) &&& 0b11).setWidth 8
  if code = 0b00 then
    some ⟨((payload >>> 40) &&& 0b11111111).setWidth 8, token, tag, 0,
      ((payload >>> 48) &&& 0b1111111111111111).setWidth 32, 0⟩
  else if code = 0b01 then
    some ⟨((payload >>> 40) &&& 0b1111).setWidth 8, token, tag, 0,
      ((payload >>> 44) &&& 0b11111111111111111111).setWidth 32, 0⟩
  else if code = 0b11 then
    some ⟨code, token, tag, ((payload >>> 42) &&& 0b1111).setWidth 8, 0,
      ((payload >>> 46) &&& 0b111111111111111111).setWidth 32⟩
  else none

/-- `_PAN_ENTRY_VALID_`. -/
def entryValid : BitVec 64 := 2

namespace PanCPU
variable (cpu : PanCPU)

section Read
variable (addr : BitVec 64)

def readWord (value : Buffer) : Except PanFault (BitVec 64 × PanCPU) :=
  match readU64 cpu.mem addr value with
  | .error fault => .error (.mem fault)
  | .ok (word, mem) => .ok (word, { cpu with mem := mem })

def readBytes (len : Nat) (target : Buffer) : Except PanFault (Buffer × PanCPU) :=
  match cpu.mem.readMemOld addr.toNat len target with
  | .error fault => .error (.mem fault)
  | .ok (data, mem) => .ok (data, { cpu with mem := mem })

def writeWord (word : BitVec 64) : Except PanFault PanCPU :=
  match cpu.mem.writeMem 0 addr.toNat 8 (bytesOf word) with
  | .error fault => .error (.mem fault)
  | .ok mem => .ok { cpu with mem := mem }

end Read

section Convert
variable (addr : BitVec 64) (head : Header) (fresh : Nat → Buffer)

/-- The body of the four cases of a get. -/
def convertGet (build : BitVec 64 → BitVec 32 → PanNicEvent) :
    Except PanFault (PanNicEvent × PanCPU) := do
  let (cmdAddr, cpu) ← cpu.readWord (addr + 8) (fresh 1)
  let (dataAddr, cpu) ← cpu.readWord (addr + 16) (fresh 2)
  .ok (build cmdAddr head.size,
    { cpu with trackGets := cpu.trackGets ++ [⟨head.tag, dataAddr, head.size⟩] })

/-- The body of the four cases of a put. -/
def convertPut (build : BitVec 64 → BitVec 32 → (Nat → BitVec 64) → PanNicEvent) :
    Except PanFault (PanNicEvent × PanCPU) := do
  let (cmdAddr, cpu) ← cpu.readWord (addr + 8) (fresh 1)
  let (dataAddr, cpu) ← cpu.readWord (addr + 16) (fresh 2)
  let (data, cpu) ← cpu.readBytes dataAddr head.size.toNat (fresh 3)
  .ok (build cmdAddr head.size (wordsOf data), cpu)

/-- The body of the cases that read an address and nothing else. -/
def convertAddr (build : BitVec 64 → PanNicEvent) : Except PanFault (PanNicEvent × PanCPU) := do
  let (cmdAddr, cpu) ← cpu.readWord (addr + 8) (fresh 1)
  .ok (build cmdAddr, cpu)

def convertWriteReg (event : PanNicEvent) : Except PanFault (PanNicEvent × PanCPU) := do
  let (cmdAddr, cpu) ← cpu.readWord (addr + 8) (fresh 1)
  let (data, cpu) ← cpu.readWord (addr + 16) (fresh 2)
  .ok (event.buildWriteReg head.token head.tag (head.size.setWidth 16) cmdAddr data, cpu)

def convertRevoke (event : PanNicEvent) : Except PanFault (PanNicEvent × PanCPU) := do
  let cpu ← cpu.writeWord (BitVec.ofNat 64 completionAddr) 1
  .ok (event.buildRevoke head.token head.tag, cpu)

def convertBOTW (event : PanNicEvent) : Except PanFault (PanNicEvent × PanCPU) := do
  let (data, cpu) ← cpu.readBytes (addr + 8) (head.varArgs.toNat * 8) (fresh 3)
  .ok (event.buildBOTW head.token head.tag head.varArgs (wordsOf data) head.offset, cpu)

/-- The switch over the opcode. RevokeFuture and StatusFuture take `CmdAddr` as it starts, which is 0. -/
def convertOpcode (opcode : PanOpcode) (event : PanNicEvent) : Except PanFault (PanNicEvent × PanCPU) :=
  match opcode with
  | .SyncGet => cpu.convertGet addr head fresh (event.buildSyncGet head.token head.tag)
  | .SyncPut => cpu.convertPut addr head fresh (event.buildSyncPut head.token head.tag)
  | .AsyncGet => cpu.convertGet addr head fresh (event.buildAsyncGet head.token head.tag)
  | .AsyncPut => cpu.convertPut addr head fresh (event.buildAsyncPut head.token head.tag)
  | .SyncStreamGet => cpu.convertGet addr head fresh (event.buildSyncStreamGet head.token head.tag)
  | .SyncStreamPut => cpu.convertPut addr head fresh (event.buildSyncStreamPut head.token head.tag)
  | .AsyncStreamGet => cpu.convertGet addr head fresh (event.buildAsyncStreamGet head.token head.tag)
  | .AsyncStreamPut => cpu.convertPut addr head fresh (event.buildAsyncStreamPut head.token head.tag)
  | .Exec => cpu.convertAddr addr fresh (event.buildExec head.token head.tag)
  | .Status => .ok (event.buildStatus head.token head.tag (head.size.setWidth 16), cpu)
  | .Cancel => .ok (event.buildCancel head.token head.tag (head.size.setWidth 16), cpu)
  | .Reserve => .ok (event.buildReserve head.token head.tag, cpu)
  | .Revoke => cpu.convertRevoke head event
  | .Halt => .ok (event.buildHalt head.token head.tag (head.size.setWidth 16), cpu)
  | .Resume => .ok (event.buildResume head.token head.tag, cpu)
  | .ReadReg =>
    cpu.convertAddr addr fresh (event.buildReadReg head.token head.tag (head.size.setWidth 16))
  | .WriteReg => cpu.convertWriteReg addr head fresh event
  | .SingleStep => .ok (event.buildSingleStep head.token head.tag (head.size.setWidth 16), cpu)
  | .SetFuture => cpu.convertAddr addr fresh (event.buildSetFuture head.token head.tag)
  | .RevokeFuture => .ok (event.buildRevokeFuture head.token head.tag 0, cpu)
  | .StatusFuture => .ok (event.buildStatusFuture head.token head.tag 0, cpu)
  | .Success => .ok (event.buildSuccess head.token head.tag, cpu)
  | .Failed => .ok (event.buildFailed head.token head.tag, cpu)
  | .BOTW => cpu.convertBOTW addr head fresh event
  | .PanRsvd => .error .fatal

end Convert

def panConvertRDMAtoEvent (addr : BitVec 64) (event : PanNicEvent) (fresh : Nat → Buffer) :
    Except PanFault (PanNicEvent × PanCPU) := do
  let (payload, cpu) ← cpu.readWord addr (fresh 0)
  match decodeHeader payload with
  | none => .error .fatal
  | some head =>
    match PanOpcode.ofCode head.code with
    | none => .error .fatal
    | some opcode =>
      let (event, cpu) ← cpu.convertOpcode addr head fresh opcode event
      .ok (event.setSrc cpu.address, cpu)

section Scan
variable (perCycle : Nat) (fresh : Nat → Nat → Buffer)

/-- One turn of the loop on the slot at `addr`: whether it has sent an event. -/
def scanSlot (addr : Nat) (fresh : Nat → Buffer) : Except PanFault (Bool × PanCPU) := do
  let (payload, cpu) ← cpu.readBytes (BitVec.ofNat 64 addr) 24 (fun _ => 0)
  if wordsOf payload 0 = entryValid then
    let (event, cpu) ← cpu.panConvertRDMAtoEvent (wordsOf payload 2) .new fresh
    let cpu ← (cpu.push event ((wordsOf payload 1).setWidth 32).toInt).writeWord (BitVec.ofNat 64 addr)
      entryInjected
    .ok (true, cpu)
  else .ok (false, cpu)

def nextAddr (addr : Nat) : Nat :=
  if addr + 24 = rdmaMailbox + 24 * rdmaMaxEntries then rdmaMailbox else addr + 24

/-- The loop with `left` turns to go, and the slot it saves. -/
def scanFrom (cpu : PanCPU) (addr sent : Nat) : Nat → Except PanFault (PanCPU × Nat)
  | 0 => .ok (cpu, addr)
  | left + 1 =>
    match cpu.scanSlot addr (fresh left) with
    | .error fault => .error fault
    | .ok (found, cpu) =>
      let sent := if found then sent + 1 else sent
      if left = 0 ∨ sent = perCycle ∨ cpu.sendMB.length = 255 then .ok (cpu, nextAddr addr)
      else scanFrom cpu (nextAddr addr) sent left

def panProcessRDMAMailbox (prevAddr : Nat) : Except PanFault (PanCPU × Nat) :=
  if cpu.sendMB.length = 255 then .ok (cpu, prevAddr)
  else scanFrom perCycle fresh cpu prevAddr 0 rdmaMaxEntries

end Scan
end PanCPU
end RevCPU.Pan
