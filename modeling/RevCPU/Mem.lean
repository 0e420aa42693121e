import Mathlib.Algebra.Ring.Nat
import RevCPU.Lib.LruCache
import RevCPU.Lib.FirstTouch
namespace RevCPU.Mem
open LruCache
/-! `RevMem` of RevMem.h and RevMem.cc without a memory controller (`ctrl` is null): segments and
address validity, the TLB, page allocation at first touch, and the local paths of WriteMem and the
hart ReadMem. Addresses are natural numbers below 2^64; an assignment to a narrower or wrapping
variable is written with its modulus. A fatal error ends the simulation, so it carries no state. -/

abbrev Byte := BitVec 8

/-- A `void *` buffer, read and written by index. -/
abbrev Buffer := Nat → Byte

inductive MemFault where
  | segFault (vAddr : Nat)
  | outOfRange (physAddr : Nat)   -- physMem indexed past its last byte
  | emptyLRU                      -- back() and pop_back() of an empty LRUQueue
deriving Repr, DecidableEq

structure MemSegment where
  baseAddr : Nat
  size : Nat
  topAddr : Nat
deriving Repr, DecidableEq

def MemSegment.make (baseAddr size : Nat) : MemSegment :=
  ⟨baseAddr, size, (baseAddr + size) % 2 ^ 64⟩

def MemSegment.contains (seg : MemSegment) (vAddr : Nat) : Bool :=
  decide (seg.baseAddr ≤ vAddr) && decide (vAddr < seg.topAddr)

namespace MemSegment

def getTopAddr (seg : MemSegment) : Nat := (seg.baseAddr + seg.size) % 2 ^ 64

-- The top is left as it is while the segment is empty.
def setBaseAddr (seg : MemSegment) (baseAddr : Nat) : MemSegment :=
  { seg with
      baseAddr := baseAddr
      topAddr := if seg.size = 0 then seg.topAddr else (seg.size + baseAddr) % 2 ^ 64 }

def setSize (seg : MemSegment) (size : Nat) : MemSegment :=
  { seg with size := size, topAddr := (seg.baseAddr + size) % 2 ^ 64 }

/-- The overload of `contains` for a range, whose last address may wrap. -/
def containsRange (seg : MemSegment) (vBaseAddr size : Nat) : Bool :=
  seg.contains vBaseAddr && seg.contains ((vBaseAddr + size + 2 ^ 64 - 1) % 2 ^ 64)

end MemSegment

structure RevMemStats where
  tlbHits : Nat := 0
  tlbMisses : Nat := 0
  bytesRead : Nat := 0
  bytesWritten : Nat := 0
deriving Repr, DecidableEq

structure RevMem where
  memSize : Nat
  tlbSize : Nat
  physMem : Nat → Byte
  tlb : Cache Nat Nat
  memSegs : List MemSegment
  pageMap : Nat → Option Nat
  nextPage : Nat
  heapend : Nat
  heapstart : Nat
  stacktop : Nat
  futureRes : List Nat
  memStats : RevMemStats

def pageSize : Nat := 262144

-- int(log(pageSize) / log(2.0))
def addrShift : Nat := 18

def stackSize : Nat := 1024 * 1024

def invalidAddr : Nat := 2 ^ 64 - 1

/-- The constructor, with the fields it leaves uninitialised as arguments. -/
def RevMem.new (memSize tlbSize heapstart heapend : Nat) : RevMem where
  memSize := memSize
  tlbSize := tlbSize
  physMem := fun _ => 0
  tlb := Cache.empty
  memSegs := []
  pageMap := fun _ => none
  nextPage := 0
  heapend := heapend
  heapstart := heapstart
  stacktop := (memSize + 2 ^ 64 - 1024) % 2 ^ 64
  futureRes := []
  memStats := {}

namespace RevMem

def addMemSegAt (mem : RevMem) (baseAddr segSize : Nat) : RevMem :=
  { mem with memSegs := mem.memSegs ++ [MemSegment.make baseAddr segSize] }

def isValidVirtAddr (mem : RevMem) (vAddr : Nat) : Bool :=
  if mem.memSegs.any fun seg => seg.contains vAddr then
    true
  else if (mem.stacktop + 2 ^ 64 - stackSize) % 2 ^ 64 ≤ vAddr then
    decide (vAddr < mem.memSize)
  else
    decide (mem.heapstart ≤ vAddr) && decide (vAddr ≤ mem.heapend)

-- The list is searched for the first entry that holds the address.
def revokeFuture (mem : RevMem) (addr : Nat) : Bool × RevMem :=
  (decide (addr ∈ mem.futureRes), { mem with futureRes := mem.futureRes.erase addr })

def flushTLB (mem : RevMem) : RevMem := { mem with tlb := Cache.empty }

def searchTLB (mem : RevMem) (vAddr : Nat) : Nat × RevMem :=
  match mem.tlb.search vAddr with
  | (none, _) =>
    (invalidAddr,
      { mem with memStats := { mem.memStats with
          tlbMisses := (mem.memStats.tlbMisses + 1) % 2 ^ 64 } })
  | (some physAddr, tlb) =>
    (physAddr,
      { mem with
          tlb := tlb
          memStats := { mem.memStats with tlbHits := (mem.memStats.tlbHits + 1) % 2 ^ 64 } })

def addToTLB (mem : RevMem) (vAddr physAddr : Nat) : Except MemFault RevMem :=
  match mem.tlb.add mem.tlbSize vAddr physAddr with
  | none => .error .emptyLRU
  | some tlb => .ok { mem with tlb := tlb }

-- nextPage and the page map's frames are uint32_t, and so is their shift.
def pageBase (frame : Nat) : Nat := (frame <<< addrShift) % 2 ^ 32

/-- The page's frame, which becomes the next free one at the first touch. -/
def touchPage (mem : RevMem) (pageNum : Nat) : Nat × RevMem :=
  match mem.pageMap pageNum with
  | none =>
    (mem.nextPage,
      { mem with
          pageMap := Function.update mem.pageMap pageNum (some mem.nextPage)
          nextPage := (mem.nextPage + 1) % 2 ^ 32 })
  | some frame => (frame, mem)

def calcPhysAddr (mem : RevMem) (pageNum vAddr : Nat) : Except MemFault (Nat × RevMem) :=
  let (cached, mem) := mem.searchTLB vAddr
  if cached = invalidAddr then
    if mem.isValidVirtAddr vAddr then
      let (frame, mem) := mem.touchPage pageNum
      let physAddr := pageBase frame + ((pageSize - 1) &&& vAddr)
      match mem.addToTLB vAddr physAddr with
      | .error fault => .error fault
      | .ok mem => .ok (physAddr, mem)
    else
      .error (.segFault vAddr)
  else
    .ok (cached, mem)

-- `pageMap[pageNum].first`, where operator[] inserts frame 0 for a missing page.
def frameOf (mem : RevMem) (pageNum : Nat) : Nat × RevMem :=
  match mem.pageMap pageNum with
  | none => (0, { mem with pageMap := Function.update mem.pageMap pageNum (some 0) })
  | some frame => (frame, mem)

/-- The two physical runs of an access: `count` bytes up to the end of the first page, then `span`
bytes of the next one. -/
structure Extent where
  physAddr : Nat
  count : Nat
  adjPhysAddr : Nat
  span : Nat

/-- The opening lines of WriteMem and ReadMem, up to their copy loops. -/
def locate (mem : RevMem) (addr len : Nat) : Except MemFault (Extent × RevMem) :=
  let pageNum := addr >>> addrShift
  match mem.calcPhysAddr pageNum addr with
  | .error fault => .error fault
  | .ok (physAddr, mem) =>
    let (frame, mem) := mem.frameOf pageNum
    let endOfPage := (pageBase frame + pageSize) % 2 ^ 32
    if endOfPage < (physAddr + len) % 2 ^ 64 then
      let span := (physAddr + len - endOfPage) % 2 ^ 32
      let adjAddr := (addr + len + 2 ^ 64 - span) % 2 ^ 64
      let adjPageNum := (adjAddr >>> addrShift) % 2 ^ 32
      match mem.calcPhysAddr adjPageNum adjAddr with
      | .error fault => .error fault
      | .ok (adjPhysAddr, mem) => .ok (⟨physAddr, (len + 2 ^ 64 - span) % 2 ^ 64, adjPhysAddr, span⟩, mem)
    else
      .ok (⟨physAddr, len, 0, 0⟩, mem)

/-- `for( i<count ) physMem[base+i] = data[cur+i]`. -/
def copyIn (mem : RevMem) (base cur : Nat) (data : Buffer) : Nat → Except MemFault RevMem
  | 0 => .ok mem
  | count + 1 =>
    match copyIn mem base cur data count with
    | .error fault => .error fault
    | .ok mem =>
      if base + count < mem.memSize then
        .ok { mem with
          physMem := Function.update mem.physMem (base + count) (data (cur + count)) }
      else
        .error (.outOfRange (base + count))

/-- `for( i<count ) data[cur+i] = physMem[base+i]`. -/
def copyOut (mem : RevMem) (base cur : Nat) (data : Buffer) : Nat → Except MemFault Buffer
  | 0 => .ok data
  | count + 1 =>
    match copyOut mem base cur data count with
    | .error fault => .error fault
    | .ok data =>
      if base + count < mem.memSize then
        .ok (Function.update data (cur + count) (mem.physMem (base + count)))
      else
        .error (.outOfRange (base + count))

/-- The common body of the two WriteMem overloads, which differ in what they send to a controller. -/
def storeLocal (mem : RevMem) (addr len : Nat) (data : Buffer) : Except MemFault RevMem :=
  let mem := (mem.revokeFuture addr).2
  match mem.locate addr len with
  | .error fault => .error fault
  | .ok (extent, mem) =>
    match mem.copyIn extent.physAddr 0 data extent.count with
    | .error fault => .error fault
    | .ok mem =>
      match mem.copyIn extent.adjPhysAddr extent.count data extent.span with
      | .error fault => .error fault
      | .ok mem =>
        .ok { mem with memStats := { mem.memStats with
          bytesWritten := (mem.memStats.bytesWritten + len) % 2 ^ 32 } }

def writeMem (mem : RevMem) (_hart addr len : Nat) (data : Buffer) : Except MemFault RevMem :=
  mem.storeLocal addr len data

def writeMemFlags (mem : RevMem) (_hart addr len : Nat) (data : Buffer) (_flags : Nat) :
    Except MemFault RevMem :=
  mem.storeLocal addr len data

/-- The target buffer and the hazard flag after a read. -/
structure ReadReply where
  target : Buffer
  hazard : Bool

-- The hazard is set on entry and cleared once the bytes are copied.
def readMem (mem : RevMem) (_hart addr len : Nat) (target : Buffer) (_flags : Nat) :
    Except MemFault (ReadReply × RevMem) :=
  match mem.locate addr len with
  | .error fault => .error fault
  | .ok (extent, mem) =>
    match mem.copyOut extent.physAddr 0 target extent.count with
    | .error fault => .error fault
    | .ok target =>
      match mem.copyOut extent.adjPhysAddr extent.count target extent.span with
      | .error fault => .error fault
      | .ok target =>
        .ok (⟨target, false⟩, { mem with memStats := { mem.memStats with
          bytesRead := (mem.memStats.bytesRead + len) % 2 ^ 32 } })

/-- `for( i<count ) data[cur] = physMem[base+i]`, where `cur` stays. -/
def copyLast (mem : RevMem) (base cur : Nat) (data : Buffer) : Nat → Except MemFault Buffer
  | 0 => .ok data
  | count + 1 =>
    match copyLast mem base cur data count with
    | .error fault => .error fault
    | .ok data =>
      if base + count < mem.memSize then
        .ok (Function.update data cur (mem.physMem (base + count)))
      else
        .error (.outOfRange (base + count))

def readMemOld (mem : RevMem) (addr len : Nat) (target : Buffer) :
    Except MemFault (Buffer × RevMem) :=
  match mem.locate addr len with
  | .error fault => .error fault
  | .ok (extent, mem) =>
    match mem.copyOut extent.physAddr 0 target extent.count with
    | .error fault => .error fault
    | .ok target =>
      match mem.copyLast extent.adjPhysAddr extent.count target extent.span with
      | .error fault => .error fault
      | .ok target =>
        .ok (target, { mem with memStats := { mem.memStats with
          bytesRead := (mem.memStats.bytesRead + len) % 2 ^ 32 } })

end RevMem

-- What a computation that is seen to succeed returns.
theorem ok_of_seen {ε α β : Type} {result : Except ε α} {observe : α → β} {outcome : β}
    (seen : result.toOption.map observe = some outcome) :
    ∃ value, result = .ok value ∧ observe value = outcome := by
  cases result with
  | error fault => exact absurd seen (by simp [Except.toOption])
  | ok value => exact ⟨value, rfl, Option.some.inj seen⟩

end RevCPU.Mem
