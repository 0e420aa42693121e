import RevCPU.RegFile
/-!
The packets of PanNet.h and PanNet.cc, and the reservation token of `panNicAPI`. The setters store and
return true, apart from `setSize` on a packet whose type has no size; the builders below only set the
size of a packet that has one. A builder that takes a null pointer refuses it; none is ever given one.
-/
namespace RevCPU.Pan
open Mem RegFile

inductive PanPacket where
  | PanBase | PanStream | PanRsvd | PanBOTW
deriving DecidableEq, Repr

/-- `PanRsvd` is the value a new packet starts with; every other byte is handled as it is. -/
inductive PanOpcode where
  | SyncGet | SyncPut | AsyncGet | AsyncPut
  | SyncStreamGet | SyncStreamPut | AsyncStreamGet | AsyncStreamPut
  | Exec | Status | Cancel | Reserve | Revoke | Halt | Resume | ReadReg | WriteReg | SingleStep
  | SetFuture | RevokeFuture | StatusFuture | Success | Failed | BOTW | PanRsvd
deriving DecidableEq, Repr

namespace PanOpcode

def code : PanOpcode → BitVec 8
  | SyncGet => 0b00000000
  | SyncPut => 0b00000100
  | AsyncGet => 0b00001000
  | AsyncPut => 0b00001100
  | SyncStreamGet => 0b0001
  | SyncStreamPut => 0b0101
  | AsyncStreamGet => 0b1001
  | AsyncStreamPut => 0b1101
  | Exec => 0b00010000
  | Status => 0b00100000
  | Cancel => 0b00110000
  | Reserve => 0b01000000
  | Revoke => 0b01010000
  | Halt => 0b01100000
  | Resume => 0b01110000
  | ReadReg => 0b10000000
  | WriteReg => 0b10010000
  | SingleStep => 0b10100000
  | SetFuture => 0b10110000
  | RevokeFuture => 0b11000000
  | StatusFuture => 0b11010000
  | Success => 0b11100000
  | Failed => 0b11110000
  | BOTW => 0b11
  | PanRsvd => 0b10

def getType (opcode : PanOpcode) : PanPacket :=
  if opcode.code &&& 0b11 = 0 then .PanBase
  else if opcode.code &&& 0b11 = 1 then .PanStream
  else if opcode.code &&& 0b11 = 2 then .PanRsvd
  else .PanBOTW

def responds (opcode : PanOpcode) : Bool := opcode == Success || opcode == Failed

def requests (opcode : PanOpcode) : Bool := !opcode.responds && opcode != PanRsvd

end PanOpcode

structure PanNicEvent where
  src : Int
  tag : BitVec 8
  opcode : PanOpcode
  varArgs : BitVec 8
  size : BitVec 32
  token : BitVec 32
  offset : BitVec 32
  addr : BitVec 64
  data : List (BitVec 64)
deriving DecidableEq, Repr

def getNumBlocks (size : BitVec 32) : Nat :=
  if size = 0 then 0
  else if size < 8 then 1
  else size.toNat / 8 + if 0 < size.toNat % 8 then 1 else 0

/-- A buffer seen as 64-bit words, and words seen as a buffer. -/
def wordsOf (buffer : Buffer) (index : Nat) : BitVec 64 :=
  word64 fun byte => buffer (8 * index + byte)

def bufferOf (words : List (BitVec 64)) : Buffer :=
  fun index => bytesOf (words.getD (index / 8) 0) (index % 8)

namespace PanNicEvent

-- The constructor leaves the source unset; whoever sends the packet sets it.
def new : PanNicEvent where
  src := 0
  tag := 0
  opcode := .PanRsvd
  varArgs := 0
  size := 0
  token := 0
  offset := 0
  addr := 0
  data := []

section Setters
variable (event : PanNicEvent)

def setSrc (src : Int) : PanNicEvent := { event with src := src }

def setTag (tag : BitVec 8) : PanNicEvent := { event with tag := tag }

def setVarArgs (varArgs : BitVec 8) : PanNicEvent := { event with varArgs := varArgs &&& 0b1111 }

def setToken (token : BitVec 32) : PanNicEvent := { event with token := token }

def setOffset (offset : BitVec 32) : PanNicEvent := { event with offset := offset &&& 0x3FFFF }

def setAddr (addr : BitVec 64) : PanNicEvent := { event with addr := addr }

def setSize (size : BitVec 32) : PanNicEvent :=
  match event.opcode.getType with
  | .PanBase => { event with size := size &&& 0xFFFF }
  | .PanStream => { event with size := size &&& 0xFFFFF }
  | .PanRsvd | .PanBOTW => { event with size := 0 }

/-- The words are appended to those the packet has. -/
def setData (input : Nat → BitVec 64) (size : BitVec 32) : PanNicEvent :=
  if size = 0 then event
  else { event with data := event.data ++ (List.range (getNumBlocks size)).map input }

/-- The words copied out; `none` where the packet has fewer than its size asks for. -/
def getData : Option (List (BitVec 64)) :=
  if event.size = 0 then some []
  else if getNumBlocks event.size ≤ event.data.length then
    some (event.data.take (getNumBlocks event.size))
  else none

end Setters

section Builders
variable (event : PanNicEvent) (token : BitVec 32) (tag : BitVec 8)

def setOpcode (opcode : PanOpcode) : PanNicEvent := { event with opcode := opcode }

/-- The body that the four get builders share. -/
def buildGet (opcode : PanOpcode) (addr : BitVec 64) (size : BitVec 32) : PanNicEvent :=
  ((((event.setOpcode opcode).setToken token).setTag tag).setSize size).setAddr addr

def buildSyncGet : BitVec 64 → BitVec 32 → PanNicEvent := event.buildGet token tag .SyncGet

def buildAsyncGet : BitVec 64 → BitVec 32 → PanNicEvent := event.buildGet token tag .AsyncGet

def buildSyncStreamGet : BitVec 64 → BitVec 32 → PanNicEvent :=
  event.buildGet token tag .SyncStreamGet

def buildAsyncStreamGet : BitVec 64 → BitVec 32 → PanNicEvent :=
  event.buildGet token tag .AsyncStreamGet

/-- The body that the four put builders share. -/
def buildPut (opcode : PanOpcode) (addr : BitVec 64) (size : BitVec 32) (data : Nat → BitVec 64) :
    PanNicEvent :=
  (event.buildGet token tag opcode addr size).setData data size

def buildSyncPut : BitVec 64 → BitVec 32 → (Nat → BitVec 64) → PanNicEvent :=
  event.buildPut token tag .SyncPut

def buildAsyncPut : BitVec 64 → BitVec 32 → (Nat → BitVec 64) → PanNicEvent :=
  event.buildPut token tag .AsyncPut

def buildSyncStreamPut : BitVec 64 → BitVec 32 → (Nat → BitVec 64) → PanNicEvent :=
  event.buildPut token tag .SyncStreamPut

def buildAsyncStreamPut : BitVec 64 → BitVec 32 → (Nat → BitVec 64) → PanNicEvent :=
  event.buildPut token tag .AsyncStreamPut

/-- The body of the builders of a response. -/
def buildResponse (opcode : PanOpcode) : PanNicEvent :=
  (((event.setOpcode opcode).setToken token).setTag tag).setSize 0

def buildSuccess : PanNicEvent := event.buildResponse token tag .Success

def buildFailed : PanNicEvent := event.buildResponse token tag .Failed

/-- The opcode, the token and the tag, which every builder sets. -/
def buildHead (opcode : PanOpcode) : PanNicEvent := ((event.setOpcode opcode).setToken token).setTag tag

/-- The body of the builders of a request about a hart or an entry, whose number stands in the size. -/
def buildNumbered (opcode : PanOpcode) (number : BitVec 16) : PanNicEvent :=
  (event.buildHead token tag opcode).setSize (number.setWidth 32)

def buildStatus (entry : BitVec 16) : PanNicEvent := event.buildNumbered token tag .Status entry

def buildCancel (entry : BitVec 16) : PanNicEvent := event.buildNumbered token tag .Cancel entry

def buildHalt (hart : BitVec 16) : PanNicEvent := event.buildNumbered token tag .Halt hart

def buildSingleStep (hart : BitVec 16) : PanNicEvent := event.buildNumbered token tag .SingleStep hart

def buildReadReg (hart : BitVec 16) (reg : BitVec 64) : PanNicEvent :=
  (event.buildNumbered token tag .ReadReg hart).setAddr reg

def buildWriteReg (hart : BitVec 16) (reg : BitVec 64) (data : BitVec 64) : PanNicEvent :=
  ((event.buildNumbered token tag .WriteReg hart).setAddr reg).setData (fun _ => data) 8

-- The size is the one that the packet has, as the builder takes none.
def buildExec (addr : BitVec 64) : PanNicEvent :=
  ((event.buildHead token tag .Exec).setSize event.size).setAddr addr

def buildReserve : PanNicEvent := event.buildHead token tag .Reserve

def buildRevoke : PanNicEvent := event.buildHead token tag .Revoke

def buildResume : PanNicEvent := event.buildHead token tag .Resume

def buildSetFuture (addr : BitVec 64) : PanNicEvent := (event.buildHead token tag .SetFuture).setAddr addr

def buildRevokeFuture (addr : BitVec 64) : PanNicEvent :=
  (event.buildHead token tag .RevokeFuture).setAddr addr

def buildStatusFuture (addr : BitVec 64) : PanNicEvent :=
  (event.buildHead token tag .StatusFuture).setAddr addr

-- The number of arguments is not stored, and is taken for their size in bytes.
def buildBOTW (varArgs : BitVec 8) (args : Nat → BitVec 64) (offset : BitVec 32) : PanNicEvent :=
  ((event.buildHead token tag .BOTW).setOffset offset).setData args (varArgs.setWidth 32)

end Builders

/-- The packet has the words that its size asks for. -/
def Packed (event : PanNicEvent) : Prop := getNumBlocks event.size ≤ event.data.length

end PanNicEvent

structure PanNicAPI where
  isHost : Bool
  isReserved : Bool
  token : BitVec 32
deriving DecidableEq, Repr

namespace PanNicAPI
variable (nic : PanNicAPI)

def checkToken (token : BitVec 32) : Bool := nic.isReserved && nic.token == token

def revokeToken : PanNicAPI := { nic with isReserved := false, token := 0 }

/-- `none` where a token is reserved already. -/
def setToken (token : BitVec 32) : Option PanNicAPI :=
  if nic.isReserved then none else some { nic with token := token, isReserved := true }

end PanNicAPI

section Packets

theorem getNumBlocks_eq (size : BitVec 32) : getNumBlocks size = (size.toNat + 7) / 8 := by
  rw [getNumBlocks]
  by_cases zero : size = 0
  · subst zero
    rfl
  · have positive : size.toNat ≠ 0 := fun nothing => zero (BitVec.eq_of_toNat_eq nothing)
    have eight : (8 : BitVec 32).toNat = 8 := rfl
    simp only [zero, if_false, BitVec.lt_def, eight]
    split_ifs <;> omega

theorem getData_packed {event : PanNicEvent} (packed : event.Packed) :
    event.getData = some (event.data.take (getNumBlocks event.size)) := by
  rw [PanNicEvent.getData]
  by_cases zero : event.size = 0
  · rw [if_pos zero, zero]
    rfl
  · simp only [zero, if_false]
    exact if_pos packed

theorem setSize_eq (event : PanNicEvent) (size : BitVec 32) :
    event.setSize size = { event with size := (event.setSize size).size } := by
  rw [PanNicEvent.setSize]
  split <;> rfl

theorem setSize_base {event : PanNicEvent} (base : event.opcode.getType = .PanBase) (size : BitVec 32) :
    event.setSize size = { event with size := size &&& 0xFFFF } := by
  rw [PanNicEvent.setSize, base]

-- A number of 16 bits fits the size of a base packet.
theorem buildNumbered_eq (event : PanNicEvent) (token : BitVec 32) (tag : BitVec 8) {opcode : PanOpcode}
    (base : opcode.getType = .PanBase) (number : BitVec 16) :
    event.buildNumbered token tag opcode number =
      { event with opcode := opcode, token := token, tag := tag, size := number.setWidth 32 } := by
  have kept : number.setWidth 32 &&& 0xFFFF = number.setWidth 32 := by
    apply BitVec.eq_of_toNat_eq
    have bound := number.isLt
    rw [BitVec.toNat_and, BitVec.toNat_setWidth, Nat.mod_eq_of_lt (by omega)]
    exact Nat.and_two_pow_sub_one_of_lt_two_pow bound
  rw [PanNicEvent.buildNumbered, setSize_base base, kept]
  rfl

-- A response is a packet with a size, and building it sets that size to 0.
theorem buildResponse_eq (event : PanNicEvent) (token : BitVec 32) (tag : BitVec 8)
    {opcode : PanOpcode} (responds : opcode.responds = true) :
    event.buildResponse token tag opcode =
      { event with opcode := opcode, token := token, tag := tag, size := 0 } := by
  have base : opcode.getType = .PanBase := by
    rcases Bool.or_eq_true_iff.mp responds with same | same
    · rw [beq_iff_eq.mp same]
      rfl
    · rw [beq_iff_eq.mp same]
      rfl
  simp only [PanNicEvent.buildResponse, PanNicEvent.setSize, PanNicEvent.setTag,
    PanNicEvent.setToken, PanNicEvent.setOpcode, base]
  rfl

@[simp] theorem buildSuccess_eq (event : PanNicEvent) (token : BitVec 32) (tag : BitVec 8) :
    event.buildSuccess token tag =
      { event with opcode := .Success, token := token, tag := tag, size := 0 } :=
  buildResponse_eq event token tag rfl

@[simp] theorem buildFailed_eq (event : PanNicEvent) (token : BitVec 32) (tag : BitVec 8) :
    event.buildFailed token tag =
      { event with opcode := .Failed, token := token, tag := tag, size := 0 } :=
  buildResponse_eq event token tag rfl

end Packets
end RevCPU.Pan
