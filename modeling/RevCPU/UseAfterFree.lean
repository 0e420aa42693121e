import RevCPU.Heap
import RevCPU.AccessFrame
import RevCPU.Atomic
/-!
Accesses to freed addresses. CalcPhysAddr asks whether an address is valid only when the TLB misses,
and DeallocMem leaves the TLB as it is. A session runs the accesses and the allocator over one memory
and keeps the addresses that were freed and have not been valid since; the results say which accesses
to them end in the segmentation fault.
-/
namespace RevCPU.UseAfterFree
open Mem Heap Atomic LruCache MemRefine

inductive Access where
  | readMem (hart addr len : Nat) (target : Buffer) (flags : Nat)
  | readMemOld (addr len : Nat) (target : Buffer)
  | writeMem (hart addr len : Nat) (data : Buffer)
  | writeMemFlags (hart addr len : Nat) (data : Buffer) (flags : Nat)
  | amoMem32 (hart addr : Nat) (data target : BitVec 32) (aliased : Bool) (flags : BitVec 32)
  | amoMem64 (hart addr : Nat) (data target : BitVec 64) (aliased : Bool) (flags : BitVec 32)

namespace Access

def addr : Access → Nat
  | readMem _ addr _ _ _ | readMemOld addr _ _ => addr
  | writeMem _ addr _ _ | writeMemFlags _ addr _ _ _ => addr
  | amoMem32 _ addr _ _ _ _ | amoMem64 _ addr _ _ _ _ => addr

/-- One translation of the first address decides; an AMO asks for it up to three times. -/
def single : Access → Bool
  | readMem .. | readMemOld .. | writeMem .. | writeMemFlags .. => true
  | amoMem32 .. | amoMem64 .. => false

def perform (mem : RevMem) : Access → Except MemFault RevMem
  | readMem hart addr len target flags => (mem.readMem hart addr len target flags).map Prod.snd
  | readMemOld addr len target => (mem.readMemOld addr len target).map Prod.snd
  | writeMem hart addr len data => mem.writeMem hart addr len data
  | writeMemFlags hart addr len data flags => mem.writeMemFlags hart addr len data flags
  | amoMem32 hart addr data target aliased flags =>
    (Atomic.amoMem32 mem hart addr data target aliased flags).map Prod.snd
  | amoMem64 hart addr data target aliased flags =>
    (Atomic.amoMem64 mem hart addr data target aliased flags).map Prod.snd

end Access

/-- The value a call returns to the guest, 0 where it returns none, and the allocator afterwards. -/
def allocate (heap : HeapMem) : Heap.Call → Except HeapFault (Nat × HeapMem)
  | .allocMem segSize => heap.allocMem segSize
  | .allocMemAt baseAddr segSize => heap.allocMemAt baseAddr segSize
  | .deallocMem baseAddr size => heap.deallocMem baseAddr size
  | .expandHeap size => (heap.expandHeap size).map fun heap => (0, heap)
  | .brk addr => (heap.brk addr).map fun heap => (0, heap)

structure Session where
  heap : HeapMem
  freed : Nat → Bool

inductive Event where
  | access (access : Access)
  | allocator (call : Heap.Call)

inductive Fault where
  | memory (fault : MemFault)
  | allocator (fault : HeapFault)

/-- The address is valid through something else than the first segment that starts at `baseAddr`. -/
def validElsewhere (heap : HeapMem) (baseAddr vAddr : Nat) : Bool :=
  (heap.setMemSegs (heap.memSegs.eraseP fun seg => decide (seg.baseAddr = baseAddr))).mem.isValidVirtAddr
    vAddr

/-- The addresses a call frees; DeallocMem returns 0 for success. -/
def frees (heap : HeapMem) (result : Nat) : Heap.Call → Nat → Bool
  | .deallocMem baseAddr size, vAddr =>
    result == 0 && decide (baseAddr ≤ vAddr) && decide (vAddr < baseAddr + size) &&
      !validElsewhere heap baseAddr vAddr
  | _, _ => false

namespace Session

def mem (session : Session) : RevMem := session.heap.mem

def step (session : Session) : Event → Except Fault Session
  | .access access =>
    match access.perform session.mem with
    | .error fault => .error (.memory fault)
    | .ok mem =>
      .ok ⟨{ session.heap with mem := mem },
        fun vAddr => session.freed vAddr && !mem.isValidVirtAddr vAddr⟩
  | .allocator call =>
    match allocate session.heap call with
    | .error fault => .error (.allocator fault)
    | .ok (result, heap) =>
      .ok ⟨heap, fun vAddr => (session.freed vAddr && !heap.mem.isValidVirtAddr vAddr) ||
        frees session.heap result call vAddr⟩

def run (session : Session) : List Event → Except Fault Session
  | [] => .ok session
  | event :: rest =>
    match session.step event with
    | .error fault => .error fault
    | .ok session => session.run rest

end Session

/-- The sizes and addresses an allocator call is given are of type uint64_t. -/
def Event.Fits : Event → Prop
  | .access _ => True
  | .allocator (.allocMem segSize) => segSize < 2 ^ 64
  | .allocator (.allocMemAt baseAddr segSize) => baseAddr < 2 ^ 64 ∧ segSize < 2 ^ 64
  | .allocator (.deallocMem baseAddr size) => baseAddr < 2 ^ 64 ∧ size < 2 ^ 64
  | .allocator (.expandHeap size) => size < 2 ^ 64
  | .allocator (.brk addr) => addr < 2 ^ 64

/-- No cached translation looks like a miss. -/
def Cached (mem : RevMem) : Prop :=
  ∀ vAddr physAddr, mem.tlb.lookup vAddr = some physAddr → physAddr ≠ invalidAddr

structure Fresh (session : Session) : Prop where
  vacant : session.mem.tlb = Cache.empty
  sizes : ∀ seg ∈ session.mem.memSegs, seg.size < 2 ^ 64
  freed : ∀ vAddr, session.freed vAddr = false

structure Inv (session : Session) : Prop where
  cached : Cached session.mem
  sizes : ∀ seg ∈ session.mem.memSegs, seg.size < 2 ^ 64
  invalid : ∀ vAddr, session.freed vAddr = true → session.mem.isValidVirtAddr vAddr = false

/-- What an access may change of what validity and translation depend on. -/
structure Kept (mem after : RevMem) : Prop where
  layout : layout after = layout mem
  cached : Cached mem → Cached after

namespace Kept
variable {mem after last : RevMem}

theorem refl (mem : RevMem) : Kept mem mem := ⟨rfl, id⟩

theorem trans (one : Kept mem after) (two : Kept after last) : Kept mem last :=
  ⟨two.layout.trans one.layout, fun cached => two.cached (one.cached cached)⟩

theorem of_tlb (layout : MemRefine.layout after = MemRefine.layout mem) (tlb : after.tlb = mem.tlb) :
    Kept mem after :=
  ⟨layout, fun cached => by rwa [Cached, tlb]⟩

end Kept

section Accesses
variable {mem after : RevMem} {vAddr : Nat}

theorem searchTLB_kept (mem : RevMem) (vAddr : Nat) : Kept mem (mem.searchTLB vAddr).2 := by
  have lookups := mem.tlb.lookup_search vAddr
  unfold RevMem.searchTLB
  split
  · exact .of_tlb rfl rfl
  · rename_i found
    rw [found] at lookups
    refine ⟨rfl, fun cached other physAddr hit => cached other physAddr ?_⟩
    rwa [← lookups]

theorem addToTLB_kept {physAddr : Nat} (real : physAddr ≠ invalidAddr)
    (added : mem.addToTLB vAddr physAddr = .ok after) : Kept mem after := by
  unfold RevMem.addToTLB at added
  split at added
  · exact absurd added (by simp)
  · rename_i tlb filled
    cases added
    refine ⟨rfl, fun cached other bound hit => ?_⟩
    rcases Cache.lookup_add filled other hit with ⟨-, rfl⟩ | old
    · exact real
    · exact cached other bound old

theorem kept_frame : AccessFrame.Frame Kept where
  refl := .refl
  trans := .trans
  search := searchTLB_kept
  add := addToTLB_kept
  pages _ _ _ := .of_tlb rfl rfl
  bytes _ _ := .of_tlb rfl rfl

theorem storeLocal_kept {addr len : Nat} {data : Buffer}
    (stored : mem.storeLocal addr len data = .ok after) : Kept mem after := by
  have revoked : Kept mem (mem.revokeFuture addr).2 := .of_tlb rfl rfl
  simp only [RevMem.storeLocal] at stored
  split at stored
  · exact absurd stored (by simp)
  · rename_i located
    split at stored
    · exact absurd stored (by simp)
    · rename_i first
      split at stored
      · exact absurd stored (by simp)
      · rename_i second
        cases stored
        have copied := (kept_frame.copyIn first).trans (kept_frame.copyIn second)
        exact ((revoked.trans (kept_frame.locate located)).trans copied).trans (.of_tlb rfl rfl)

theorem readMem_kept {hart addr len flags : Nat} {target : Buffer} {reply : RevMem.ReadReply}
    (read : mem.readMem hart addr len target flags = .ok (reply, after)) : Kept mem after := by
  simp only [RevMem.readMem] at read
  split at read
  · exact absurd read (by simp)
  · rename_i located
    split at read
    · exact absurd read (by simp)
    · split at read
      · exact absurd read (by simp)
      · cases read
        exact (kept_frame.locate located).trans (.of_tlb rfl rfl)

theorem readMemOld_kept {addr len : Nat} {target data : Buffer}
    (read : mem.readMemOld addr len target = .ok (data, after)) : Kept mem after := by
  simp only [RevMem.readMemOld] at read
  split at read
  · exact absurd read (by simp)
  · rename_i located
    split at read
    · exact absurd read (by simp)
    · split at read
      · exact absurd read (by simp)
      · cases read
        exact (kept_frame.locate located).trans (.of_tlb rfl rfl)

theorem amoLocal_kept {w : Nat} {join : Buffer → BitVec w} {hart addr len : Nat}
    {data target cell : BitVec w} {aliased : Bool} {flags : BitVec 32}
    (done : amoLocal join mem hart addr len data target aliased flags = .ok (cell, after)) :
    Kept mem after := by
  simp only [amoLocal] at done
  split at done
  · exact absurd done (by simp)
  · rename_i translated
    split at done
    · cases done
      exact kept_frame.calcPhysAddr translated
    · split at done
      · exact absurd done (by simp)
      · rename_i read
        split at done
        · exact absurd done (by simp)
        · rename_i stored
          cases done
          have read := (kept_frame.calcPhysAddr translated).trans (readMem_kept read)
          exact read.trans (storeLocal_kept stored)

theorem perform_kept {access : Access} (performed : access.perform mem = .ok after) :
    Kept mem after := by
  have unwrap : ∀ {α : Type} {result : Except MemFault (α × RevMem)},
      result.map Prod.snd = .ok after → ∃ value, result = .ok (value, after) := by
    intro α result mapped
    cases result with
    | error fault => exact absurd mapped (by simp [Except.map])
    | ok pair => exact ⟨pair.1, by cases mapped; rfl⟩
  cases access with
  | readMem hart addr len target flags =>
    obtain ⟨reply, read⟩ := unwrap performed
    exact readMem_kept read
  | readMemOld addr len target =>
    obtain ⟨data, read⟩ := unwrap performed
    exact readMemOld_kept read
  | writeMem hart addr len data => exact storeLocal_kept performed
  | writeMemFlags hart addr len data flags => exact storeLocal_kept performed
  | amoMem32 hart addr data target aliased flags =>
    obtain ⟨cell, done⟩ := unwrap performed
    exact amoLocal_kept done
  | amoMem64 hart addr data target aliased flags =>
    obtain ⟨cell, done⟩ := unwrap performed
    exact amoLocal_kept done

section Faults

theorem calcPhysAddr_uncached (page : Nat) (miss : mem.tlb.lookup vAddr = none)
    (invalid : mem.isValidVirtAddr vAddr = false) :
    mem.calcPhysAddr page vAddr = .error (.segFault vAddr) := by
  simp only [RevMem.calcPhysAddr, Tlb.searchTLB_miss miss, if_true]
  exact if_neg (ne_true_of_eq_false invalid)

-- A segmentation fault is only ever raised for an address the TLB does not hold.
theorem calcPhysAddr_segFault (cached : Cached mem) {page addr : Nat}
    (faulted : mem.calcPhysAddr page vAddr = .error (.segFault addr)) :
    addr = vAddr ∧ mem.tlb.lookup vAddr = none := by
  have result := searchTLB_result mem vAddr
  have hit : ∀ physAddr, mem.tlb.lookup vAddr = some physAddr →
      (mem.searchTLB vAddr).1 ≠ invalidAddr := by
    intro physAddr found
    rw [result, found]
    exact cached vAddr physAddr found
  have added : ∀ (before : RevMem) physAddr,
      before.addToTLB vAddr physAddr ≠ .error (.segFault addr) := by
    intro before physAddr
    unfold RevMem.addToTLB
    split <;> simp
  simp only [RevMem.calcPhysAddr] at faulted
  split at faulted
  · rename_i missed
    have absent : mem.tlb.lookup vAddr = none := by
      cases found : mem.tlb.lookup vAddr with
      | none => rfl
      | some physAddr => exact absurd missed (hit physAddr found)
    split at faulted
    · split at faulted
      · rename_i full
        cases faulted
        exact absurd full (added _ _)
      · exact absurd faulted (by simp)
    · cases faulted
      exact ⟨rfl, absent⟩
  · exact absurd faulted (by simp)

theorem calcPhysAddr_held {page physAddr : Nat}
    (translated : mem.calcPhysAddr page vAddr = .ok (physAddr, after)) :
    after.tlb.lookup vAddr ≠ none := by
  have result := searchTLB_result mem vAddr
  simp only [RevMem.calcPhysAddr] at translated
  split at translated
  · split at translated
    · split at translated
      · exact absurd translated (by simp)
      · rename_i added
        cases translated
        unfold RevMem.addToTLB at added
        split at added
        · exact absurd added (by simp)
        · rename_i filled
          cases added
          apply Cache.not_mem_keys.not.mp
          rw [not_not, Cache.keys_add filled]
          exact List.mem_cons_self
    · exact absurd translated (by simp)
  · rename_i hit
    cases translated
    rw [Tlb.searchTLB_tlb, Cache.lookup_search]
    intro absent
    rw [result, absent] at hit
    exact hit rfl

theorem frameOf_tlb (mem : RevMem) (page : Nat) : (mem.frameOf page).2.tlb = mem.tlb := by
  unfold RevMem.frameOf
  split <;> rfl

theorem locate_uncached {addr : Nat} (len : Nat) (miss : mem.tlb.lookup addr = none)
    (invalid : mem.isValidVirtAddr addr = false) :
    mem.locate addr len = .error (.segFault addr) := by
  simp only [RevMem.locate, calcPhysAddr_uncached _ miss invalid]

-- The second page of an access may fault, but then it is another address that does.
theorem locate_segFault (cached : Cached mem) {addr len : Nat}
    (faulted : mem.locate addr len = .error (.segFault addr)) : mem.tlb.lookup addr = none := by
  simp only [RevMem.locate] at faulted
  split at faulted
  · rename_i failed
    cases faulted
    exact (calcPhysAddr_segFault cached failed).2
  · rename_i physAddr first translated
    split at faulted
    · split at faulted
      · rename_i failed
        cases faulted
        have framed := kept_frame.frameOf first (addr >>> addrShift)
        have kept := (kept_frame.calcPhysAddr translated).trans framed
        have stillCached := kept.cached cached
        obtain ⟨same, absent⟩ := calcPhysAddr_segFault stillCached failed
        rw [← same, frameOf_tlb] at absent
        exact absurd absent (calcPhysAddr_held translated)
      · exact absurd faulted (by simp)
    · exact absurd faulted (by simp)

theorem copyIn_fault {base cur count addr : Nat} {data : Buffer} :
    mem.copyIn base cur data count ≠ .error (.segFault addr) := by
  induction count with
  | zero => simp [RevMem.copyIn]
  | succ count ih =>
    rw [RevMem.copyIn]
    split
    · rename_i failed
      rwa [failed] at ih
    · split <;> simp

theorem copyOut_fault {base cur count addr : Nat} {data : Buffer} :
    mem.copyOut base cur data count ≠ .error (.segFault addr) := by
  induction count with
  | zero => simp [RevMem.copyOut]
  | succ count ih =>
    rw [RevMem.copyOut]
    split
    · rename_i failed
      rwa [failed] at ih
    · split <;> simp

theorem copyLast_fault {base cur count addr : Nat} {data : Buffer} :
    mem.copyLast base cur data count ≠ .error (.segFault addr) := by
  induction count with
  | zero => simp [RevMem.copyLast]
  | succ count ih =>
    rw [RevMem.copyLast]
    split
    · rename_i failed
      rwa [failed] at ih
    · split <;> simp

theorem storeLocal_segFault (cached : Cached mem) {addr len : Nat} {data : Buffer}
    (faulted : mem.storeLocal addr len data = .error (.segFault addr)) :
    mem.tlb.lookup addr = none := by
  simp only [RevMem.storeLocal] at faulted
  split at faulted
  · rename_i failed
    cases faulted
    have revoked : Cached (mem.revokeFuture addr).2 := cached
    exact locate_segFault revoked failed
  · split at faulted
    · rename_i failed
      cases faulted
      exact absurd failed copyIn_fault
    · split at faulted
      · rename_i failed
        cases faulted
        exact absurd failed copyIn_fault
      · exact absurd faulted (by simp)

theorem readMem_segFault (cached : Cached mem) {hart addr len flags : Nat} {target : Buffer}
    (faulted : mem.readMem hart addr len target flags = .error (.segFault addr)) :
    mem.tlb.lookup addr = none := by
  simp only [RevMem.readMem] at faulted
  split at faulted
  · rename_i failed
    cases faulted
    exact locate_segFault cached failed
  · split at faulted
    · rename_i failed
      cases faulted
      exact absurd failed copyOut_fault
    · split at faulted
      · rename_i failed
        cases faulted
        exact absurd failed copyOut_fault
      · exact absurd faulted (by simp)

theorem readMemOld_segFault (cached : Cached mem) {len : Nat} {target : Buffer} {addr : Nat}
    (faulted : mem.readMemOld addr len target = .error (.segFault addr)) :
    mem.tlb.lookup addr = none := by
  simp only [RevMem.readMemOld] at faulted
  split at faulted
  · rename_i failed
    cases faulted
    exact locate_segFault cached failed
  · split at faulted
    · rename_i failed
      cases faulted
      exact absurd failed copyOut_fault
    · split at faulted
      · rename_i failed
        cases faulted
        exact absurd failed copyLast_fault
      · exact absurd faulted (by simp)

theorem perform_uncached {access : Access} (miss : mem.tlb.lookup access.addr = none)
    (invalid : mem.isValidVirtAddr access.addr = false) :
    access.perform mem = .error (.segFault access.addr) := by
  cases access with
  | readMem hart addr len target flags =>
    have located := locate_uncached len miss invalid
    simp only [Access.addr] at located
    simp only [Access.perform, RevMem.readMem, located, Except.map, Access.addr]
  | readMemOld addr len target =>
    have located := locate_uncached len miss invalid
    simp only [Access.addr] at located
    simp only [Access.perform, RevMem.readMemOld, located, Except.map, Access.addr]
  | writeMem hart addr len data =>
    have located : (mem.revokeFuture addr).2.locate addr len = .error (.segFault addr) :=
      locate_uncached len miss invalid
    simp only [Access.perform, RevMem.writeMem, RevMem.storeLocal, located, Access.addr]
  | writeMemFlags hart addr len data flags =>
    have located : (mem.revokeFuture addr).2.locate addr len = .error (.segFault addr) :=
      locate_uncached len miss invalid
    simp only [Access.perform, RevMem.writeMemFlags, RevMem.storeLocal, located, Access.addr]
  | amoMem32 hart addr data target aliased flags =>
    have translated := calcPhysAddr_uncached (addr >>> addrShift) miss invalid
    simp only [Access.addr] at translated
    simp only [Access.perform, Atomic.amoMem32, amoLocal, translated, Except.map, Access.addr]
  | amoMem64 hart addr data target aliased flags =>
    have translated := calcPhysAddr_uncached (addr >>> addrShift) miss invalid
    simp only [Access.addr] at translated
    simp only [Access.perform, Atomic.amoMem64, amoLocal, translated, Except.map, Access.addr]

theorem perform_segFault (cached : Cached mem) {access : Access} (single : access.single = true)
    (faulted : access.perform mem = .error (.segFault access.addr)) :
    mem.tlb.lookup access.addr = none := by
  cases access with
  | readMem hart addr len target flags =>
    cases read : mem.readMem hart addr len target flags with
    | error fault =>
      simp only [Access.perform, read, Except.map, Access.addr] at faulted
      cases faulted
      exact readMem_segFault cached read
    | ok reply => exact absurd faulted (by simp [Access.perform, read, Except.map])
  | readMemOld addr len target =>
    cases read : mem.readMemOld addr len target with
    | error fault =>
      simp only [Access.perform, read, Except.map, Access.addr] at faulted
      cases faulted
      exact readMemOld_segFault cached read
    | ok reply => exact absurd faulted (by simp [Access.perform, read, Except.map])
  | writeMem hart addr len data => exact storeLocal_segFault cached faulted
  | writeMemFlags hart addr len data flags => exact storeLocal_segFault cached faulted
  | amoMem32 hart addr data target aliased flags => exact absurd single (by simp [Access.single])
  | amoMem64 hart addr data target aliased flags => exact absurd single (by simp [Access.single])

end Faults
end Accesses

section Allocator
variable {heap after : HeapMem} {result : Nat}

theorem expandHeap_kept {size : Nat} (grown : heap.expandHeap size = .ok after) :
    after.mem.tlb = heap.mem.tlb ∧ after.mem.memSegs = heap.mem.memSegs := by
  rw [expandHeap_ok grown]
  exact ⟨rfl, rfl⟩

theorem sizes_append {segs : List MemSegment} {baseAddr segSize : Nat} (small : segSize < 2 ^ 64)
    (sizes : ∀ seg ∈ segs, seg.size < 2 ^ 64) :
    ∀ seg ∈ segs ++ [MemSegment.make baseAddr segSize], seg.size < 2 ^ 64 := by
  intro seg member
  rcases List.mem_append.mp member with old | last
  · exact sizes seg old
  · rw [List.mem_singleton.mp last]
    exact small

theorem allocMem_kept {segSize : Nat} (small : segSize < 2 ^ 64)
    (sizes : ∀ seg ∈ heap.mem.memSegs, seg.size < 2 ^ 64)
    (allocated : heap.allocMem segSize = .ok (result, after)) :
    after.mem.tlb = heap.mem.tlb ∧ ∀ seg ∈ after.mem.memSegs, seg.size < 2 ^ 64 := by
  simp only [HeapMem.allocMem] at allocated
  split at allocated
  · cases allocated
    exact ⟨rfl, sizes_append small sizes⟩
  · split at allocated
    · exact absurd allocated (by simp)
    · rename_i grown
      cases allocated
      obtain ⟨tlb, segs⟩ := expandHeap_kept grown
      rw [segs]
      exact ⟨tlb, sizes_append small sizes⟩

theorem allocMemAt_kept {baseAddr segSize : Nat} (small : segSize < 2 ^ 64)
    (sizes : ∀ seg ∈ heap.mem.memSegs, seg.size < 2 ^ 64)
    (allocated : heap.allocMemAt baseAddr segSize = .ok (result, after)) :
    after.mem.tlb = heap.mem.tlb ∧ ∀ seg ∈ after.mem.memSegs, seg.size < 2 ^ 64 := by
  simp only [HeapMem.allocMemAt] at allocated
  split at allocated
  · cases allocated
    exact ⟨rfl, sizes⟩
  · split at allocated
    · cases allocated
      exact ⟨rfl, sizes⟩
    · split at allocated
      · exact absurd allocated (by simp)
      · cases allocated
        exact ⟨rfl, sizes_append small sizes⟩

/-- A deallocation that succeeds: the first segment at the address gives way to its own rest. -/
theorem deallocMem_zero {baseAddr size : Nat} (freed : heap.deallocMem baseAddr size = .ok (0, after)) :
    after.mem.tlb = heap.mem.tlb ∧ ∃ seg front back, seg.baseAddr = baseAddr ∧ size ≤ seg.size ∧
      (heap.memSegs.find? fun seg => decide (seg.baseAddr = baseAddr)) = some seg ∧
      heap.memSegs = front ++ seg :: back ∧
      after = { after with mem := { heap.mem with memSegs := front ++
        (if size < seg.size then
          [(seg.setBaseAddr ((baseAddr + size) % 2 ^ 64)).setSize (seg.size - size)] else []) ++
        back } } := by
  unfold HeapMem.deallocMem at freed
  cases found : heap.memSegs.find? fun seg => decide (seg.baseAddr = baseAddr) with
  | none =>
    rw [release_none found] at freed
    exact absurd freed (by simp)
  | some seg =>
    obtain ⟨starts, front, back, split, released⟩ := release_some size found
    by_cases beyond : seg.size < size
    · rw [released, if_pos beyond] at freed
      exact absurd freed (by simp)
    · rw [released, if_neg beyond] at freed
      cases freed
      exact ⟨rfl, seg, front, back, starts, Nat.not_lt.mp beyond, rfl, split, rfl⟩

theorem deallocMem_nonzero {baseAddr size : Nat} (other : result ≠ 0)
    (freed : heap.deallocMem baseAddr size = .ok (result, after)) : after = heap := by
  unfold HeapMem.deallocMem at freed
  split at freed
  · exact absurd freed (by simp)
  · cases freed
    rfl
  · cases freed
    exact absurd rfl other

-- The rest of a shortened segment starts at the end of the freed range, also where that wraps.
theorem rest_excludes {seg : MemSegment} {size vAddr : Nat} (small : seg.size < 2 ^ 64)
    (inside : size ≤ seg.size) (low : seg.baseAddr ≤ vAddr) (high : vAddr < seg.baseAddr + size) :
    vAddr ∉ (seg.setBaseAddr ((seg.baseAddr + size) % 2 ^ 64)).setSize (seg.size - size) := by
  rw [mem_seg]
  simp only [MemSegment.setSize, MemSegment.setBaseAddr]
  omega

theorem eraseP_perm {segs front back : List MemSegment} {seg : MemSegment} {hit : MemSegment → Bool}
    (found : segs.find? hit = some seg) (split : segs = front ++ seg :: back) :
    (segs.eraseP hit).Perm (front ++ back) := by
  obtain ⟨first, before, behind, misses, hits, decomposed, erased⟩ :=
    List.exists_of_eraseP (List.mem_of_find?_eq_some found) (List.find?_some found)
  have same : first = seg := by
    have none : before.find? hit = none := List.find?_eq_none.mpr misses
    rw [decomposed, List.find?_append, none, Option.none_or, List.find?_cons_of_pos hits] at found
    exact Option.some.inj found
  subst same
  rw [erased]
  apply List.Perm.cons_inv (a := first)
  calc first :: (before ++ behind) |>.Perm (before ++ first :: behind) := List.perm_middle.symm
    _ = front ++ first :: back := by rw [← decomposed, split]
    _ |>.Perm (first :: (front ++ back)) := List.perm_middle

-- The stack and the heap range are asked only about an address outside every segment.
theorem isValidVirtAddr_or (mem : RevMem) (vAddr : Nat) :
    mem.isValidVirtAddr vAddr = ((mem.memSegs.any fun seg => seg.contains vAddr) ||
      ({ mem with memSegs := [] } : RevMem).isValidVirtAddr vAddr) := by
  have first : ∀ held rest : Bool, (if held = true then true else rest) = (held || rest) := by decide
  simp only [RevMem.isValidVirtAddr, first, List.any_nil, Bool.false_or]

theorem isValidVirtAddr_segs {heap : HeapMem} {vAddr : Nat} {segs fewer : List MemSegment}
    (invalid : (heap.setMemSegs segs).mem.isValidVirtAddr vAddr = false)
    (outside : ∀ seg ∈ fewer, vAddr ∉ seg) :
    (heap.setMemSegs fewer).mem.isValidVirtAddr vAddr = false := by
  rw [isValidVirtAddr_or] at invalid ⊢
  obtain ⟨-, beyond⟩ := Bool.or_eq_false_iff.mp invalid
  apply Bool.or_eq_false_iff.mpr
  constructor
  · apply List.any_eq_false.mpr
    intro seg member
    exact outside seg member
  · exact beyond

theorem freed_invalid {baseAddr size vAddr : Nat}
    (sizes : ∀ seg ∈ heap.mem.memSegs, seg.size < 2 ^ 64)
    (freed : heap.deallocMem baseAddr size = .ok (0, after)) (low : baseAddr ≤ vAddr)
    (high : vAddr < baseAddr + size) (elsewhere : validElsewhere heap baseAddr vAddr = false) :
    after.mem.isValidVirtAddr vAddr = false := by
  obtain ⟨-, seg, front, back, rfl, inside, found, split, same⟩ := deallocMem_zero freed
  have segs : after.mem = (heap.setMemSegs (front ++ (if size < seg.size then
      [(seg.setBaseAddr ((seg.baseAddr + size) % 2 ^ 64)).setSize (seg.size - size)] else []) ++
      back)).mem := by
    rw [same]
    rfl
  rw [segs]
  have others : ∀ other ∈ front ++ back, vAddr ∉ other := by
    intro other member holds
    have kept := (eraseP_perm found split).mem_iff.mpr member
    have valid : validElsewhere heap seg.baseAddr vAddr = true := by
      unfold validElsewhere RevMem.isValidVirtAddr
      exact if_pos (List.any_eq_true.mpr ⟨other, kept, holds⟩)
    rw [elsewhere] at valid
    exact absurd valid (by simp)
  have small := sizes seg (List.mem_of_find?_eq_some found)
  refine isValidVirtAddr_segs elsewhere fun other member => ?_
  rcases List.mem_append.mp member with start | behind
  · rcases List.mem_append.mp start with before | rest
    · exact others other (List.mem_append_left _ before)
    · split at rest
      · rw [List.mem_singleton.mp rest]
        exact rest_excludes small inside low high
      · exact absurd rest (by simp)
  · exact others other (List.mem_append_right _ behind)

theorem deallocMem_kept {baseAddr size : Nat} (sizes : ∀ seg ∈ heap.mem.memSegs, seg.size < 2 ^ 64)
    (freed : heap.deallocMem baseAddr size = .ok (result, after)) :
    after.mem.tlb = heap.mem.tlb ∧ ∀ seg ∈ after.mem.memSegs, seg.size < 2 ^ 64 := by
  by_cases success : result = 0
  · subst success
    obtain ⟨tlb, seg, front, back, -, -, found, split, same⟩ := deallocMem_zero freed
    have small := sizes seg (List.mem_of_find?_eq_some found)
    have outer : ∀ other ∈ front ++ seg :: back, other.size < 2 ^ 64 := by
      rw [← split]
      exact sizes
    refine ⟨tlb, ?_⟩
    rw [same]
    intro other member
    rcases List.mem_append.mp member with start | behind
    · rcases List.mem_append.mp start with before | rest
      · exact outer other (List.mem_append_left _ before)
      · split at rest
        · rw [List.mem_singleton.mp rest]
          exact Nat.lt_of_le_of_lt (Nat.sub_le ..) small
        · exact absurd rest (by simp)
    · exact outer other (List.mem_append_right _ (List.mem_cons_of_mem _ behind))
  · rw [deallocMem_nonzero success freed]
    exact ⟨rfl, sizes⟩

theorem allocate_kept {call : Heap.Call} (fits : (Event.allocator call).Fits)
    (sizes : ∀ seg ∈ heap.mem.memSegs, seg.size < 2 ^ 64)
    (allocated : allocate heap call = .ok (result, after)) :
    after.mem.tlb = heap.mem.tlb ∧ ∀ seg ∈ after.mem.memSegs, seg.size < 2 ^ 64 := by
  have grows : ∀ {grown : Except HeapFault HeapMem}, (∀ last, grown = .ok last →
      last.mem.tlb = heap.mem.tlb ∧ last.mem.memSegs = heap.mem.memSegs) →
      grown.map (fun last => (0, last)) = .ok (result, after) →
      after.mem.tlb = heap.mem.tlb ∧ ∀ seg ∈ after.mem.memSegs, seg.size < 2 ^ 64 := by
    intro grown kept mapped
    cases grown with
    | error fault => exact absurd mapped (by simp [Except.map])
    | ok last =>
      cases mapped
      obtain ⟨tlb, segs⟩ := kept after rfl
      rw [segs]
      exact ⟨tlb, sizes⟩
  cases call with
  | allocMem segSize => exact allocMem_kept fits sizes allocated
  | allocMemAt baseAddr segSize => exact allocMemAt_kept fits.2 sizes allocated
  | deallocMem baseAddr size => exact deallocMem_kept sizes allocated
  | expandHeap size => exact grows (fun _ grown => expandHeap_kept grown) allocated
  | brk addr =>
    apply grows _ allocated
    intro last grown
    unfold HeapMem.brk at grown
    split at grown
    · exact expandHeap_kept grown
    · exact absurd grown (by simp)

end Allocator

section Runs
variable {session after : Session}

theorem fresh_inv (fresh : Fresh session) : Inv session where
  cached := by simp [Cached, fresh.vacant]
  sizes := fresh.sizes
  invalid := by simp [fresh.freed]

theorem step_inv (inv : Inv session) {event : Event} (fits : event.Fits)
    (stepped : session.step event = .ok after) : Inv after := by
  cases event with
  | access access =>
    simp only [Session.step] at stepped
    split at stepped
    · exact absurd stepped (by simp)
    · rename_i mem performed
      cases stepped
      have kept := perform_kept performed
      have segs : mem.memSegs = session.mem.memSegs := congrArg (fun parts => parts.2.2.1) kept.layout
      refine ⟨kept.cached inv.cached, ?_, fun vAddr freed => ?_⟩
      · change ∀ seg ∈ mem.memSegs, _
        rw [segs]
        exact inv.sizes
      · exact (Bool.not_eq_true' _).mp (Bool.and_eq_true_iff.mp freed).2
  | allocator call =>
    simp only [Session.step] at stepped
    split at stepped
    · exact absurd stepped (by simp)
    · rename_i result heap allocated
      cases stepped
      obtain ⟨tlb, sizes⟩ := allocate_kept fits inv.sizes allocated
      refine ⟨?_, sizes, fun vAddr freed => ?_⟩
      · have cached := inv.cached
        rw [Session.mem, Cached, ← tlb] at cached
        exact cached
      · rcases Bool.or_eq_true_iff.mp freed with old | new
        · exact (Bool.not_eq_true' _).mp (Bool.and_eq_true_iff.mp old).2
        · cases call with
          | deallocMem baseAddr size =>
            simp only [frees, Bool.and_eq_true, beq_iff_eq, decide_eq_true_eq,
              Bool.not_eq_true'] at new
            obtain ⟨⟨⟨rfl, low⟩, high⟩, elsewhere⟩ := new
            exact freed_invalid inv.sizes allocated low high elsewhere
          | allocMem | allocMemAt | expandHeap | brk => exact absurd new (by simp [frees])

theorem run_inv (inv : Inv session) {events : List Event} (fits : ∀ event ∈ events, event.Fits)
    (ran : session.run events = .ok after) : Inv after := by
  induction events generalizing session with
  | nil =>
    cases ran
    exact inv
  | cons event rest ih =>
    rw [Session.run] at ran
    split at ran
    · exact absurd ran (by simp)
    · rename_i stepped
      have next := step_inv inv (fits event List.mem_cons_self) stepped
      exact ih next (fun other member => fits other (List.mem_cons_of_mem _ member)) ran

/-- An access to a freed address faults when the TLB does not hold it, and a read or a write only
then. -/
theorem freed_access_faults (fresh : Fresh session) {events : List Event}
    (fits : ∀ event ∈ events, event.Fits) (ran : session.run events = .ok after) {access : Access}
    (freed : after.freed access.addr = true) :
    (after.mem.tlb.lookup access.addr = none →
      access.perform after.mem = .error (.segFault access.addr)) ∧
    (access.single = true → access.perform after.mem = .error (.segFault access.addr) →
      after.mem.tlb.lookup access.addr = none) := by
  have inv := run_inv (fresh_inv fresh) fits ran
  constructor
  · intro miss
    exact perform_uncached miss (inv.invalid access.addr freed)
  · intro single faulted
    exact perform_segFault inv.cached single faulted

/-- One segment of 64 bytes at address 4096, away from the stack and the heap. -/
def oneSegment : Session where
  heap :=
    { mem := { RevMem.new 2097152 16 16 16 with memSegs := [MemSegment.make 4096 64] }
      freeMemSegs := []
      maxHeapSize := 1000 }
  freed := fun _ => false

theorem oneSegment_fresh : Fresh oneSegment where
  vacant := rfl
  sizes := by simp [oneSegment, Session.mem, MemSegment.make]
  freed := fun _ => rfl

def writeThenFree : List Event :=
  [.access (.writeMem 0 4096 1 fun _ => 7), .allocator (.deallocMem 4096 64)]

def readByte (vAddr : Nat) : Access := .readMem 0 vAddr 1 (fun _ => 0) 0

/-- The freed byte behind the written one was never translated. -/
theorem freed_access_faults_untouched :
    ∃ after, oneSegment.run writeThenFree = .ok after ∧ after.freed 4097 = true ∧
      (readByte 4097).perform after.mem = .error (.segFault 4097) := by
  have fits : ∀ event ∈ writeThenFree, event.Fits := by
    simp [writeThenFree, Event.Fits]
  have seen : (oneSegment.run writeThenFree).toOption.map (fun after =>
      (after.freed 4097, after.mem.tlb.lookup 4097)) = some (true, none) := by decide
  obtain ⟨after, ran, facts⟩ := ok_of_seen seen
  obtain ⟨freed, miss⟩ := Prod.mk.inj facts
  refine ⟨after, ran, freed, ?_⟩
  exact (freed_access_faults oneSegment_fresh fits ran
    (show after.freed (readByte 4097).addr = true from freed)).1 miss

-- The written byte is still cached, so it is read after the deallocation.
theorem freed_access_succeeds :
    ∃ after last, oneSegment.run writeThenFree = .ok after ∧ after.freed 4096 = true ∧
      (readByte 4096).perform after.mem = .ok last := by
  have seen : (oneSegment.run writeThenFree).toOption.map (fun after =>
      (after.freed 4096, ((readByte 4096).perform after.mem).toOption.map fun _ => ())) =
      some (true, some ()) := by decide
  obtain ⟨after, ran, facts⟩ := ok_of_seen seen
  obtain ⟨freed, read⟩ := Prod.mk.inj facts
  obtain ⟨last, performed, -⟩ := ok_of_seen read
  exact ⟨after, last, ran, freed, performed⟩

end Runs
end RevCPU.UseAfterFree
