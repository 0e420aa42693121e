import RevCPU.Lib.Regions
import RevCPU.Mem
/-!
The heap allocator of RevMem.cc: InitHeap, AllocMem, AllocMemAt, DeallocMem, ExpandHeap, and the brk
call of RevProc.cc. Two schemes serve the same addresses, a list of free segments and a break that
only grows. The results name the steps on which they collide, and show that without them every
segment in use stays clear of every other, of the free list and of the ranges given out by brk.
-/
namespace RevCPU.Heap
open Mem Regions

inductive HeapFault where
  | noStaticData
  | outOfMemory (newHeapEnd : Nat)
  | alreadyAllocated (baseAddr segSize : Nat)
  | beyondSegment (baseAddr size : Nat)
  | badBreak (addr : Nat)
deriving Repr, DecidableEq

/-- RevMem with the fields only the allocator uses. -/
structure HeapMem where
  mem : RevMem
  freeMemSegs : List MemSegment
  maxHeapSize : Nat

namespace HeapMem

def memSegs (heap : HeapMem) : List MemSegment := heap.mem.memSegs

def heapend (heap : HeapMem) : Nat := heap.mem.heapend

def setMemSegs (heap : HeapMem) (segs : List MemSegment) : HeapMem :=
  { heap with mem := { heap.mem with memSegs := segs } }

def initHeap (heap : HeapMem) (endOfStaticData : Nat) : Except HeapFault HeapMem :=
  if endOfStaticData = 0 then .error .noStaticData
  else .ok
    { heap with
        mem := { heap.mem with
          heapend := (endOfStaticData + 1) % 2 ^ 64
          heapstart := (endOfStaticData + 1) % 2 ^ 64 }
        freeMemSegs := heap.freeMemSegs ++
          [MemSegment.make ((endOfStaticData + 1) % 2 ^ 64) heap.maxHeapSize] }

def expandHeap (heap : HeapMem) (size : Nat) : Except HeapFault HeapMem :=
  let newHeapEnd := (heap.heapend + size) % 2 ^ 64
  if heap.maxHeapSize < newHeapEnd then .error (.outOfMemory newHeapEnd)
  else .ok { heap with mem := { heap.mem with heapend := newHeapEnd } }

/-- The search loop of AllocMem: the base it hands out and the free list left over. A segment that is
larger gives its lower part, one that fits exactly is erased. -/
def takeFree (segSize : Nat) (free : List MemSegment) : Option (Nat × List MemSegment) :=
  (replaceFirst (fun seg => decide (segSize ≤ seg.size))
    (fun seg =>
      if segSize < seg.size then
        [(seg.setBaseAddr ((seg.baseAddr + segSize) % 2 ^ 64)).setSize (seg.size - segSize)]
      else []) free).map fun found => (found.1.baseAddr, found.2)

def allocMem (heap : HeapMem) (segSize : Nat) : Except HeapFault (Nat × HeapMem) :=
  match takeFree segSize heap.freeMemSegs with
  | some (base, free) =>
    .ok (base, { heap.setMemSegs (heap.memSegs ++ [MemSegment.make base segSize]) with
      freeMemSegs := free })
  | none =>
    let base := heap.heapend
    match (heap.setMemSegs (heap.memSegs ++ [MemSegment.make base segSize])).expandHeap segSize with
    | .error fault => .error fault
    | .ok heap => .ok (base, heap)

/-- What AllocMemAt leaves of a free segment: in its place, and behind the last free segment. -/
def splitFree (baseAddr segSize : Nat) (seg : MemSegment) : List MemSegment × List MemSegment :=
  let newTop := (baseAddr + segSize) % 2 ^ 64
  if seg.baseAddr ≠ baseAddr ∧ seg.getTopAddr ≠ newTop then
    ([seg.setSize ((baseAddr + 2 ^ 64 - seg.baseAddr) % 2 ^ 64)],
      [MemSegment.make newTop ((seg.getTopAddr + 2 ^ 64 - newTop) % 2 ^ 64)])
  else if seg.baseAddr = baseAddr ∧ seg.getTopAddr ≠ newTop then
    ([seg.setBaseAddr newTop], [])   -- the size stays, so the segment moves up
  else if seg.baseAddr ≠ baseAddr ∧ seg.getTopAddr = newTop then
    ([seg.setSize ((seg.size + 2 ^ 64 - segSize) % 2 ^ 64)], [])
  else
    ([], [])

def carve (baseAddr segSize : Nat) (free : List MemSegment) : Option (List MemSegment) :=
  (replaceFirst (fun seg => seg.containsRange baseAddr segSize)
    (fun seg => (splitFree baseAddr segSize seg).1) free).map fun found =>
      found.2 ++ (splitFree baseAddr segSize found.1).2

/-- `int ret = BaseAddr`, read back as a uint64_t. -/
def throughInt (addr : Nat) : Nat :=
  if addr % 2 ^ 32 < 2 ^ 31 then addr % 2 ^ 32 else addr % 2 ^ 32 + (2 ^ 64 - 2 ^ 32)

def allocMemAt (heap : HeapMem) (baseAddr segSize : Nat) : Except HeapFault (Nat × HeapMem) :=
  match carve baseAddr segSize heap.freeMemSegs with
  | none => .ok (0, heap)
  | some free =>
    let heap := { heap with freeMemSegs := free }
    if throughInt baseAddr = 0 then .ok (0, heap)
    else if heap.memSegs.any fun seg =>
        seg.contains baseAddr || seg.contains ((baseAddr + segSize) % 2 ^ 64) then
      .error (.alreadyAllocated baseAddr segSize)
    else
      .ok (throughInt baseAddr,
        heap.setMemSegs (heap.memSegs ++ [MemSegment.make baseAddr segSize]))

/-- The search loop of DeallocMem over the segments in use; `none` when no segment starts there. -/
def release (baseAddr size : Nat) (segs : List MemSegment) :
    Except HeapFault (Option (List MemSegment)) :=
  match replaceFirst (fun seg => decide (seg.baseAddr = baseAddr))
    (fun seg =>
      if size < seg.size then
        [(seg.setBaseAddr ((baseAddr + size) % 2 ^ 64)).setSize (seg.size - size)]
      else []) segs with
  | none => .ok none
  | some (seg, left) =>
    if seg.size < size then .error (.beyondSegment baseAddr size) else .ok (some left)

/-- The merge loop of DeallocMem: the first free segment that holds the address before the range. -/
def mergeFree (baseAddr size : Nat) (free : List MemSegment) : Option (List MemSegment) :=
  (replaceFirst (fun seg => seg.contains ((baseAddr + 2 ^ 64 - 1) % 2 ^ 64))
    (fun seg => [seg.setSize ((seg.size + size) % 2 ^ 64)]) free).map Prod.snd

-- The result -1 is returned as a uint64_t.
def deallocMem (heap : HeapMem) (baseAddr size : Nat) : Except HeapFault (Nat × HeapMem) :=
  match release baseAddr size heap.memSegs with
  | .error fault => .error fault
  | .ok none => .ok (2 ^ 64 - 1, heap)
  | .ok (some segs) =>
    .ok (0, { heap.setMemSegs segs with
      freeMemSegs := (mergeFree baseAddr size heap.freeMemSegs).getD
        (heap.freeMemSegs ++ [MemSegment.make baseAddr size]) })

/-- `RevProc::ECALL_brk`. -/
def brk (heap : HeapMem) (addr : Nat) : Except HeapFault HeapMem :=
  if 0 < addr ∧ heap.heapend < addr then heap.expandHeap (addr - heap.heapend)
  else .error (.badBreak addr)

end HeapMem

instance : Membership Nat MemSegment := ⟨fun seg vAddr => seg.contains vAddr = true⟩

/-- The three fields of a segment agree, and no address of it wraps. -/
structure Sound (seg : MemSegment) : Prop where
  top : seg.topAddr = seg.baseAddr + seg.size
  fits : seg.topAddr < 2 ^ 64

section Segments
variable {seg : MemSegment} {vAddr baseAddr size : Nat}

theorem mem_seg : vAddr ∈ seg ↔ seg.baseAddr ≤ vAddr ∧ vAddr < seg.topAddr := by
  rw [show (vAddr ∈ seg) = (seg.contains vAddr = true) from rfl]
  simp [MemSegment.contains]

theorem make_sound (fits : baseAddr + size < 2 ^ 64) : Sound (MemSegment.make baseAddr size) := by
  have top : (MemSegment.make baseAddr size).topAddr = baseAddr + size := Nat.mod_eq_of_lt fits
  exact ⟨top, by rwa [top]⟩

theorem mem_make (fits : baseAddr + size < 2 ^ 64) :
    vAddr ∈ MemSegment.make baseAddr size ↔ baseAddr ≤ vAddr ∧ vAddr < baseAddr + size := by
  rw [mem_seg, (make_sound fits).top]
  rfl

theorem setSize_sound (fits : seg.baseAddr + size < 2 ^ 64) : Sound (seg.setSize size) := by
  have top : (seg.setSize size).topAddr = seg.baseAddr + size := Nat.mod_eq_of_lt fits
  exact ⟨top, by rwa [top]⟩

theorem mem_setSize (fits : seg.baseAddr + size < 2 ^ 64) :
    vAddr ∈ seg.setSize size ↔ seg.baseAddr ≤ vAddr ∧ vAddr < seg.baseAddr + size := by
  rw [mem_seg, (setSize_sound fits).top]
  rfl

theorem Sound.getTopAddr (sound : Sound seg) : seg.getTopAddr = seg.topAddr := by
  have fits := sound.fits
  rw [sound.top] at fits ⊢
  exact Nat.mod_eq_of_lt fits

/-- What is left of a sound segment whose first `size` addresses are given away. -/
theorem drop_front_sound (sound : Sound seg) (inside : size ≤ seg.size) :
    Sound ((seg.setBaseAddr ((seg.baseAddr + size) % 2 ^ 64)).setSize (seg.size - size)) ∧
      ∀ vAddr, vAddr ∈ (seg.setBaseAddr ((seg.baseAddr + size) % 2 ^ 64)).setSize (seg.size - size) ↔
        seg.baseAddr + size ≤ vAddr ∧ vAddr < seg.topAddr := by
  have fits := sound.fits
  have top := sound.top
  have base : (seg.setBaseAddr ((seg.baseAddr + size) % 2 ^ 64)).baseAddr = seg.baseAddr + size :=
    Nat.mod_eq_of_lt (by omega)
  have room : (seg.setBaseAddr ((seg.baseAddr + size) % 2 ^ 64)).baseAddr + (seg.size - size) <
      2 ^ 64 := by
    rw [base]
    omega
  refine ⟨setSize_sound room, fun vAddr => ?_⟩
  rw [mem_setSize room, base]
  omega

end Segments

/-- The segments in use, the free list and the ranges given out by brk keep clear of each other. -/
structure Clean (live free brks : List MemSegment) : Prop where
  soundLive : ∀ seg ∈ live, Sound seg
  soundFree : ∀ seg ∈ free, Sound seg
  liveApart : live.Pairwise Apart
  freeApart : free.Pairwise Apart
  cross : ∀ seg ∈ live, ∀ other ∈ free, Apart seg other
  given : ∀ seg ∈ live, ∀ range ∈ brks, Apart seg range

namespace Clean
variable {live free brks others : List MemSegment} {whole fresh : MemSegment}

-- A free segment gives way to pieces that stay clear of everything else.
theorem cut (clean : Clean live free brks) {after pieces : List MemSegment}
    (old : free.Perm (whole :: others)) (new : after.Perm (pieces ++ others))
    (sound : ∀ piece ∈ pieces, Sound piece) (inner : pieces.Pairwise Apart)
    (outer : ∀ piece ∈ pieces, ∀ other ∈ others, Apart piece other)
    (away : ∀ piece ∈ pieces, ∀ seg ∈ live, Apart seg piece) : Clean live after brks := by
  have kept : ∀ other ∈ others, other ∈ free :=
    fun other member => old.mem_iff.mpr (List.mem_cons_of_mem _ member)
  refine ⟨clean.soundLive, ?_, clean.liveApart, pairwise_replace clean.freeApart old new inner outer, ?_,
    clean.given⟩
  · intro seg member
    rcases List.mem_append.mp (new.mem_iff.mp member) with piece | other
    · exact sound seg piece
    · exact clean.soundFree seg (kept seg other)
  · intro seg member other present
    rcases List.mem_append.mp (new.mem_iff.mp present) with piece | old
    · exact away other piece seg member
    · exact clean.cross seg member other (kept other old)

theorem adopt (clean : Clean live free brks) (sound : Sound fresh)
    (awayLive : ∀ seg ∈ live, Apart fresh seg) (awayFree : ∀ seg ∈ free, Apart fresh seg)
    (awayGiven : ∀ range ∈ brks, Apart fresh range) : Clean (live ++ [fresh]) free brks := by
  have split : ∀ {holds : MemSegment → Prop}, (∀ seg ∈ live, holds seg) → holds fresh →
      ∀ seg ∈ live ++ [fresh], holds seg := by
    intro holds old new seg member
    rcases List.mem_append.mp member with before | last
    · exact old seg before
    · rw [List.mem_singleton.mp last]
      exact new
  exact ⟨split clean.soundLive sound, clean.soundFree, pairwise_add clean.liveApart awayLive, clean.freeApart,
    split clean.cross awayFree, split clean.given awayGiven⟩

-- A part of a free segment is handed out and the pieces around it stay free.
theorem handOut (clean : Clean live free brks) {after pieces : List MemSegment}
    (old : free.Perm (whole :: others)) (new : after.Perm (pieces ++ others))
    (sound : ∀ piece ∈ pieces, Sound piece) (inner : pieces.Pairwise Apart)
    (outer : ∀ piece ∈ pieces, ∀ other ∈ others, Apart piece other)
    (away : ∀ piece ∈ pieces, ∀ seg ∈ live, Apart seg piece) (freshSound : Sound fresh)
    (within : ∀ vAddr, vAddr ∈ fresh → vAddr ∈ whole)
    (around : ∀ piece ∈ pieces, Apart fresh piece)
    (awayGiven : ∀ range ∈ brks, Apart fresh range) : Clean (live ++ [fresh]) after brks := by
  have member : whole ∈ free := old.mem_iff.mpr List.mem_cons_self
  apply (clean.cut old new sound inner outer away).adopt freshSound
  · intro seg present
    exact (clean.cross seg present whole member).symm.mono within
  · intro seg present
    rcases List.mem_append.mp (new.mem_iff.mp present) with piece | other
    · exact around seg piece
    · exact (apart_of_perm clean.freeApart old seg other).mono within
  · exact awayGiven

-- A segment in use keeps only a part of itself, or nothing.
theorem shrink (clean : Clean live free brks) {after remains : List MemSegment}
    (old : live.Perm (whole :: others)) (new : after.Perm (remains ++ others))
    (sound : ∀ part ∈ remains, Sound part) (inner : remains.Pairwise Apart)
    (within : ∀ part ∈ remains, ∀ vAddr, vAddr ∈ part → vAddr ∈ whole) :
    Clean after free brks := by
  have member : whole ∈ live := old.mem_iff.mpr List.mem_cons_self
  have kept : ∀ other ∈ others, other ∈ live :=
    fun other present => old.mem_iff.mpr (List.mem_cons_of_mem _ present)
  have split : ∀ {holds : MemSegment → Prop}, (∀ part ∈ remains, holds part) →
      (∀ seg ∈ live, holds seg) → ∀ seg ∈ after, holds seg := by
    intro holds parts before seg present
    rcases List.mem_append.mp (new.mem_iff.mp present) with part | other
    · exact parts seg part
    · exact before seg (kept seg other)
  refine ⟨split sound clean.soundLive, clean.soundFree, ?_, clean.freeApart, ?_, ?_⟩
  · apply pairwise_replace clean.liveApart old new inner
    intro part present other rest
    exact (apart_of_perm clean.liveApart old other rest).mono (within part present)
  · apply split _ clean.cross
    intro part present other free
    exact (clean.cross whole member other free).mono (within part present)
  · apply split _ clean.given
    intro part present range given
    exact (clean.given whole member range given).mono (within part present)

theorem enlarge (clean : Clean live free brks) (sound : Sound fresh)
    (awayLive : ∀ seg ∈ live, Apart fresh seg) (awayFree : ∀ seg ∈ free, Apart fresh seg) :
    Clean live (free ++ [fresh]) brks := by
  refine ⟨clean.soundLive, ?_, clean.liveApart, pairwise_add clean.freeApart awayFree, ?_, clean.given⟩
  · intro seg member
    rcases List.mem_append.mp member with old | last
    · exact clean.soundFree seg old
    · rw [List.mem_singleton.mp last]
      exact sound
  · intro seg member other present
    rcases List.mem_append.mp present with old | last
    · exact clean.cross seg member other old
    · rw [List.mem_singleton.mp last]
      exact (awayLive seg member).symm

end Clean

/-- A run of the allocator: the loader's segments, the segments handed out since and not yet freed,
and the ranges given out by brk. -/
structure Run where
  heap : HeapMem
  statics : List MemSegment
  live : List MemSegment
  brks : List MemSegment

inductive Call where
  | allocMem (segSize : Nat)
  | allocMemAt (baseAddr segSize : Nat)
  | deallocMem (baseAddr size : Nat)
  | expandHeap (size : Nat)
  | brk (addr : Nat)
deriving Repr, DecidableEq

/-- The segments of one owner after a deallocation. DeallocMem searches the loader's first. -/
def releaseRest (baseAddr size : Nat) (segs : List MemSegment) : Option (List MemSegment) :=
  match HeapMem.release baseAddr size segs with
  | .ok left => left
  | .error _ => none

namespace Call

def step (run : Run) : Call → Except HeapFault Run
  | allocMem segSize =>
    match run.heap.allocMem segSize with
    | .error fault => .error fault
    | .ok (base, heap) =>
      .ok { run with heap := heap, live := run.live ++ [MemSegment.make base segSize] }
  | allocMemAt baseAddr segSize =>
    match run.heap.allocMemAt baseAddr segSize with
    | .error fault => .error fault
    | .ok (_, heap) =>
      -- what the call registered, if it did
      .ok { run with
        heap := heap
        live := run.live ++ heap.memSegs.drop run.heap.memSegs.length }
  | deallocMem baseAddr size =>
    match run.heap.deallocMem baseAddr size with
    | .error fault => .error fault
    | .ok (_, heap) =>
      match releaseRest baseAddr size run.statics with
      | some statics => .ok { run with heap := heap, statics := statics }
      | none =>
        .ok { run with heap := heap, live := (releaseRest baseAddr size run.live).getD run.live }
  | expandHeap size =>
    match run.heap.expandHeap size with
    | .error fault => .error fault
    | .ok heap =>
      .ok { run with heap := heap, brks := run.brks ++ [MemSegment.make run.heap.heapend size] }
  | brk addr =>
    match run.heap.brk addr with
    | .error fault => .error fault
    | .ok heap =>
      .ok { run with
        heap := heap
        brks := run.brks ++ [MemSegment.make run.heap.heapend (addr - run.heap.heapend)] }

end Call

def Clear (fresh : MemSegment) (others : List MemSegment) : Prop :=
  ∀ other ∈ others, Apart fresh other

/-- The calls on which the two allocation schemes, the wrapping ranges and the truncated result do
no harm. Arguments are of type uint64_t. -/
def Allowed (run : Run) : Call → Prop
  -- the first free segment that is large enough does not lie in a range given out by brk, and
  -- without one the range above the break is free of segments
  | .allocMem segSize =>
    segSize < 2 ^ 64 ∧
    match run.heap.freeMemSegs.find? fun seg => decide (segSize ≤ seg.size) with
    | some seg => Clear (MemSegment.make seg.baseAddr segSize) run.brks
    | none =>
      run.heap.heapend + segSize < 2 ^ 64 ∧
        Clear (MemSegment.make run.heap.heapend segSize) (run.live ++ run.heap.freeMemSegs)
  -- where a free segment holds the range, the address survives the int, the range does not wrap, and the
  -- front of the segment is taken only if the segment may move up by as much; the result for a range that is
  -- in none is 0, which the address may not be
  | .allocMemAt baseAddr segSize =>
    baseAddr < 2 ^ 64 ∧ segSize < 2 ^ 64 ∧ baseAddr ≠ 0 ∧
    ∀ seg, (run.heap.freeMemSegs.find? fun seg => seg.containsRange baseAddr segSize) = some seg →
      (HeapMem.throughInt baseAddr = 0 ∨ HeapMem.throughInt baseAddr = baseAddr) ∧
      baseAddr + segSize < 2 ^ 64 ∧
      (seg.baseAddr = baseAddr → seg.topAddr ≠ baseAddr + segSize →
        seg.topAddr + segSize < 2 ^ 64 ∧
          Clear (MemSegment.make seg.topAddr segSize) (run.live ++ run.heap.freeMemSegs)) ∧
      (HeapMem.throughInt baseAddr ≠ 0 → Clear (MemSegment.make baseAddr segSize) run.brks)
  -- what is freed of a loader segment was not handed out or freed a second time
  | .deallocMem baseAddr size =>
    baseAddr < 2 ^ 64 ∧ size < 2 ^ 64 ∧
    ∀ seg, (run.statics.find? fun seg => decide (seg.baseAddr = baseAddr)) = some seg →
      size ≤ seg.size → baseAddr + size < 2 ^ 64 ∧
        Clear (MemSegment.make baseAddr size) (run.live ++ run.heap.freeMemSegs)
  -- no segment in use lies above the break
  | .expandHeap size =>
    run.heap.heapend + size < 2 ^ 64 ∧ Clear (MemSegment.make run.heap.heapend size) run.live
  | .brk addr =>
    addr < 2 ^ 64 ∧ Clear (MemSegment.make run.heap.heapend (addr - run.heap.heapend)) run.live

/-- InitHeap on a memory that holds the loader's segments and no free one. -/
structure Started (run : Run) : Prop where
  init : ∃ before endOfStaticData, HeapMem.initHeap before endOfStaticData = .ok run.heap ∧
    before.freeMemSegs = [] ∧ before.memSegs = run.statics ∧
    endOfStaticData + 1 + before.maxHeapSize < 2 ^ 64
  live : run.live = []
  brks : run.brks = []

inductive Reached : Run → Prop
  | start {run : Run} (started : Started run) : Reached run
  | call {run after : Run} (before : Reached run) (call : Call) (allowed : Allowed run call)
    (stepped : call.step run = .ok after) : Reached after

structure Inv (run : Run) : Prop where
  segs : run.heap.memSegs = run.statics ++ run.live
  clean : Clean run.live run.heap.freeMemSegs run.brks
  below : ∀ range ∈ run.brks, ∀ vAddr ∈ range, vAddr < run.heap.heapend

theorem started_inv {run : Run} (started : Started run) : Inv run := by
  obtain ⟨⟨before, last, init, noFree, segs, fits⟩, noLive, noBrk⟩ := started
  unfold HeapMem.initHeap at init
  split at init
  · exact absurd init (by simp)
  · have sound : Sound (MemSegment.make ((last + 1) % 2 ^ 64) before.maxHeapSize) := by
      apply make_sound
      rw [Nat.mod_eq_of_lt (by omega)]
      omega
    have result := (Except.ok.inj init).symm
    have free : run.heap.freeMemSegs =
        [MemSegment.make ((last + 1) % 2 ^ 64) before.maxHeapSize] := by simp [result, noFree]
    constructor
    · rw [noLive, List.append_nil, ← segs, result]
      rfl
    · rw [noLive, noBrk, free]
      exact ⟨by simp, by simpa using sound, .nil, by simp, by simp, by simp⟩
    · simp [noBrk]

theorem expandHeap_ok {heap after : HeapMem} {size : Nat} (grown : heap.expandHeap size = .ok after) :
    after = { heap with mem := { heap.mem with heapend := (heap.heapend + size) % 2 ^ 64 } } := by
  simp only [HeapMem.expandHeap] at grown
  split at grown
  · exact absurd grown (by simp)
  · exact (Except.ok.inj grown).symm

theorem containsRange_bounds {seg : MemSegment} (sound : Sound seg) {baseAddr segSize : Nat}
    (small : baseAddr + segSize < 2 ^ 64) (inside : seg.containsRange baseAddr segSize = true) :
    seg.baseAddr ≤ baseAddr ∧ baseAddr < seg.topAddr ∧ baseAddr + segSize ≤ seg.topAddr ∧
      (segSize = 0 → seg.baseAddr < baseAddr) := by
  have fits := sound.fits
  simp only [MemSegment.containsRange, MemSegment.contains, Bool.and_eq_true,
    decide_eq_true_eq] at inside
  omega

/-- The pieces AllocMemAt leaves of a free segment keep clear of the new segment, of each other, and
of whatever the free segment, moved up by a front cut, keeps clear of. -/
theorem splitFree_pieces {seg : MemSegment} (sound : Sound seg) {baseAddr segSize : Nat}
    (small : baseAddr + segSize < 2 ^ 64) (inside : seg.containsRange baseAddr segSize = true)
    (room : seg.baseAddr = baseAddr → seg.topAddr ≠ baseAddr + segSize →
      seg.topAddr + segSize < 2 ^ 64) :
    (∀ piece ∈ (HeapMem.splitFree baseAddr segSize seg).1 ++
        (HeapMem.splitFree baseAddr segSize seg).2,
      Sound piece ∧ Apart (MemSegment.make baseAddr segSize) piece ∧
      ∀ other : MemSegment, Apart seg other →
        (seg.baseAddr = baseAddr → seg.topAddr ≠ baseAddr + segSize →
          Apart (MemSegment.make seg.topAddr segSize) other) → Apart piece other) ∧
    ((HeapMem.splitFree baseAddr segSize seg).1 ++
      (HeapMem.splitFree baseAddr segSize seg).2).Pairwise Apart := by
  obtain ⟨low, high, top, strict⟩ := containsRange_bounds sound small inside
  have fits := sound.fits
  have sum := sound.top
  have newTop : (baseAddr + segSize) % 2 ^ 64 = baseAddr + segSize := Nat.mod_eq_of_lt small
  have within : ∀ piece : MemSegment, (∀ vAddr, vAddr ∈ piece → vAddr ∈ seg) →
      ∀ other : MemSegment, Apart seg other → (seg.baseAddr = baseAddr →
        seg.topAddr ≠ baseAddr + segSize → Apart (MemSegment.make seg.topAddr segSize) other) →
        Apart piece other := fun piece part other apart _ => apart.mono part
  simp only [HeapMem.splitFree, newTop, sound.getTopAddr]
  split
  · -- the middle: a lower and an upper rest
    have lower : (baseAddr + 2 ^ 64 - seg.baseAddr) % 2 ^ 64 = baseAddr - seg.baseAddr := by omega
    have upper : (seg.topAddr + 2 ^ 64 - (baseAddr + segSize)) % 2 ^ 64 =
        seg.topAddr - (baseAddr + segSize) := by omega
    have lowerFits : seg.baseAddr + (baseAddr - seg.baseAddr) < 2 ^ 64 := by omega
    have upperFits : baseAddr + segSize + (seg.topAddr - (baseAddr + segSize)) < 2 ^ 64 := by omega
    rw [lower, upper]
    constructor
    · intro piece member
      rcases List.mem_append.mp member with first | second
      · rw [List.mem_singleton.mp first]
        refine ⟨setSize_sound lowerFits, fun vAddr one two => ?_, within _ fun vAddr two => ?_⟩
        · rw [mem_make small] at one
          rw [mem_setSize lowerFits] at two
          omega
        · rw [mem_setSize lowerFits] at two
          rw [mem_seg]
          omega
      · rw [List.mem_singleton.mp second]
        refine ⟨make_sound upperFits, fun vAddr one two => ?_, within _ fun vAddr two => ?_⟩
        · rw [mem_make small] at one
          rw [mem_make upperFits] at two
          omega
        · rw [mem_make upperFits] at two
          rw [mem_seg]
          omega
    · rw [List.singleton_append, List.pairwise_pair]
      intro vAddr one two
      rw [mem_setSize lowerFits] at one
      rw [mem_make upperFits] at two
      omega
  · split
    · -- the front: the rest keeps its size
      rename_i front
      obtain ⟨rfl, notAll⟩ := front
      have grown := room rfl notAll
      have nonempty : seg.size ≠ 0 := by omega
      have movedTop : (seg.setBaseAddr (seg.baseAddr + segSize)).topAddr = seg.topAddr + segSize := by
        simp only [MemSegment.setBaseAddr, if_neg nonempty]
        omega
      have moved : ∀ vAddr, vAddr ∈ seg.setBaseAddr (seg.baseAddr + segSize) ↔
          seg.baseAddr + segSize ≤ vAddr ∧ vAddr < seg.topAddr + segSize := by
        intro vAddr
        rw [mem_seg, movedTop]
        rfl
      constructor
      · intro piece member
        rw [List.append_nil, List.mem_singleton] at member
        subst member
        refine ⟨⟨?_, ?_⟩, ?_, ?_⟩
        · rw [movedTop, sum]
          simp only [MemSegment.setBaseAddr]
          omega
        · rw [movedTop]
          exact grown
        · intro vAddr one two
          rw [mem_make small] at one
          rw [moved] at two
          omega
        · intro other apart above vAddr one two
          rw [moved] at one
          by_cases old : vAddr < seg.topAddr
          · exact apart vAddr (by rw [mem_seg]; omega) two
          · exact above rfl notAll vAddr (by rw [mem_make grown]; omega) two
      · simp
    · split
      · -- the back
        rename_i back
        have rest : (seg.size + 2 ^ 64 - segSize) % 2 ^ 64 = seg.size - segSize := by omega
        have restFits : seg.baseAddr + (seg.size - segSize) < 2 ^ 64 := by omega
        rw [rest]
        constructor
        · intro piece member
          rw [List.append_nil, List.mem_singleton] at member
          subst member
          refine ⟨setSize_sound restFits, fun vAddr one two => ?_, within _ fun vAddr two => ?_⟩
          · rw [mem_make small] at one
            rw [mem_setSize restFits] at two
            omega
          · rw [mem_setSize restFits] at two
            rw [mem_seg]
            omega
        · simp
      · simp

theorem release_none {baseAddr size : Nat} {segs : List MemSegment}
    (absent : (segs.find? fun seg => decide (seg.baseAddr = baseAddr)) = none) :
    HeapMem.release baseAddr size segs = .ok none := by
  rw [HeapMem.release, replaceFirst_eq_none.mpr absent]

theorem release_some {baseAddr : Nat} (size : Nat) {segs : List MemSegment} {seg : MemSegment}
    (found : (segs.find? fun seg => decide (seg.baseAddr = baseAddr)) = some seg) :
    seg.baseAddr = baseAddr ∧ ∃ front back, segs = front ++ seg :: back ∧
      HeapMem.release baseAddr size segs =
        if seg.size < size then .error (.beyondSegment baseAddr size)
        else .ok (some (front ++ (if size < seg.size then
          [(seg.setBaseAddr ((baseAddr + size) % 2 ^ 64)).setSize (seg.size - size)] else []) ++
            back)) := by
  obtain ⟨starts, front, back, split, replaced⟩ := replaceFirst_of_find (fun seg =>
      if size < seg.size then
        [(seg.setBaseAddr ((baseAddr + size) % 2 ^ 64)).setSize (seg.size - size)]
      else []) found
  exact ⟨of_decide_eq_true starts, front, back, split, by rw [HeapMem.release, replaced]⟩

theorem release_append (baseAddr size : Nat) (one two : List MemSegment) :
    HeapMem.release baseAddr size (one ++ two) =
      match HeapMem.release baseAddr size one with
      | .error fault => .error fault
      | .ok (some left) => .ok (some (left ++ two))
      | .ok none => (HeapMem.release baseAddr size two).map (Option.map (one ++ ·)) := by
  simp only [HeapMem.release, replaceFirst_append]
  cases replaceFirst _ _ one with
  | some found =>
    by_cases beyond : found.1.size < size <;> simp [beyond]
  | none =>
    cases replaceFirst _ _ two with
    | none => rfl
    | some found => by_cases beyond : found.1.size < size <;> simp [beyond, Except.map]

-- The freed range joins the free segment that ends where it starts, or becomes a segment of its own.
theorem refund_clean {live free brks : List MemSegment} (clean : Clean live free brks)
    {baseAddr size : Nat} (fits : baseAddr + size < 2 ^ 64)
    (awayLive : Clear (MemSegment.make baseAddr size) live)
    (awayFree : Clear (MemSegment.make baseAddr size) free) :
    Clean live ((HeapMem.mergeFree baseAddr size free).getD
      (free ++ [MemSegment.make baseAddr size])) brks := by
  cases found : free.find? fun seg => seg.contains ((baseAddr + 2 ^ 64 - 1) % 2 ^ 64) with
  | none =>
    rw [HeapMem.mergeFree, replaceFirst_eq_none.mpr found]
    exact clean.enlarge (make_sound fits) awayLive awayFree
  | some seg =>
    obtain ⟨holds, front, back, split, replaced⟩ := replaceFirst_of_find
      (fun seg => [seg.setSize ((seg.size + size) % 2 ^ 64)]) found
    have member : seg ∈ free := List.mem_of_find?_eq_some found
    have sound := clean.soundFree seg member
    have top := sound.top
    have small := sound.fits
    have before : seg.baseAddr + 1 ≤ baseAddr ∧ baseAddr ≤ seg.topAddr := by
      simp only [MemSegment.contains, Bool.and_eq_true, decide_eq_true_eq] at holds
      omega
    have ends : size = 0 ∨ seg.topAddr = baseAddr := by
      by_contra neither
      apply awayFree seg member baseAddr
      · rw [mem_make fits]
        omega
      · rw [mem_seg]
        omega
    have sum : (seg.size + size) % 2 ^ 64 = seg.size + size := by omega
    have mergedFits : seg.baseAddr + (seg.size + size) < 2 ^ 64 := by omega
    have merged : ∀ vAddr, vAddr ∈ seg.setSize (seg.size + size) →
        vAddr ∈ seg ∨ vAddr ∈ MemSegment.make baseAddr size := by
      intro vAddr inside
      rw [mem_setSize mergedFits] at inside
      rw [mem_seg, mem_make fits]
      omega
    have old : free.Perm (seg :: (front ++ back)) := split ▸ List.perm_middle
    have new := perm_replaced front [seg.setSize (seg.size + size)] back []
    rw [List.append_nil, List.append_nil] at new
    rw [HeapMem.mergeFree, replaced, sum]
    apply clean.cut old new
    · simpa using setSize_sound mergedFits
    · simp
    · simp only [List.mem_singleton, forall_eq]
      intro other rest vAddr one two
      rcases merged vAddr one with inSeg | inRange
      · exact apart_of_perm clean.freeApart old other rest vAddr inSeg two
      · exact awayFree other (old.mem_iff.mpr (List.mem_cons_of_mem _ rest)) vAddr inRange two
    · simp only [List.mem_singleton, forall_eq]
      intro other used vAddr one two
      rcases merged vAddr two with inSeg | inRange
      · exact clean.cross other used seg member vAddr one inSeg
      · exact awayLive other used vAddr inRange one

section Steps
variable {run : Run} (inv : Inv run)
include inv

theorem takeFree_found {segSize : Nat} {seg : MemSegment}
    (found : (run.heap.freeMemSegs.find? fun seg => decide (segSize ≤ seg.size)) = some seg)
    (clear : Clear (MemSegment.make seg.baseAddr segSize) run.brks) :
    ∃ left, HeapMem.takeFree segSize run.heap.freeMemSegs = some (seg.baseAddr, left) ∧
      Clean (run.live ++ [MemSegment.make seg.baseAddr segSize]) left run.brks := by
  obtain ⟨enough, front, back, split, replaced⟩ := replaceFirst_of_find (fun seg =>
      if segSize < seg.size then
        [(seg.setBaseAddr ((seg.baseAddr + segSize) % 2 ^ 64)).setSize (seg.size - segSize)]
      else []) found
  have enough : segSize ≤ seg.size := of_decide_eq_true enough
  have member : seg ∈ run.heap.freeMemSegs := List.mem_of_find?_eq_some found
  have sound := inv.clean.soundFree seg member
  obtain ⟨restSound, restMem⟩ := drop_front_sound sound enough
  have fits : seg.baseAddr + segSize < 2 ^ 64 := by
    have fits := sound.fits
    rw [sound.top] at fits
    omega
  have taken : ∀ vAddr, vAddr ∈ MemSegment.make seg.baseAddr segSize → vAddr ∈ seg := by
    intro vAddr inside
    rw [mem_make fits] at inside
    rw [mem_seg, sound.top]
    omega
  have old : run.heap.freeMemSegs.Perm (seg :: (front ++ back)) := split ▸ List.perm_middle
  have new := perm_replaced front (if segSize < seg.size then
    [(seg.setBaseAddr ((seg.baseAddr + segSize) % 2 ^ 64)).setSize (seg.size - segSize)] else []) back []
  rw [List.append_nil, List.append_nil] at new
  refine ⟨_, by rw [HeapMem.takeFree, replaced]; rfl, ?_⟩
  by_cases larger : segSize < seg.size
  · rw [if_pos larger] at new ⊢
    have within : ∀ vAddr, vAddr ∈
        (seg.setBaseAddr ((seg.baseAddr + segSize) % 2 ^ 64)).setSize (seg.size - segSize) →
        vAddr ∈ seg := by
      intro vAddr inside
      rw [restMem] at inside
      rw [mem_seg]
      omega
    apply inv.clean.handOut old new _ _ _ _ (make_sound fits) taken _ clear
    · simpa using restSound
    · simp
    · simpa using fun other present => (apart_of_perm inv.clean.freeApart old other present).mono within
    · simpa using fun other present => ((inv.clean.cross other present seg member).symm.mono within).symm
    · have apart : Apart (MemSegment.make seg.baseAddr segSize)
          ((seg.setBaseAddr ((seg.baseAddr + segSize) % 2 ^ 64)).setSize (seg.size - segSize)) := by
        intro vAddr inFresh inRest
        rw [mem_make fits] at inFresh
        rw [restMem] at inRest
        omega
      simpa using apart
  · rw [if_neg larger] at new ⊢
    exact inv.clean.handOut old new (by simp) .nil (by simp) (by simp) (make_sound fits) taken
      (by simp) clear

theorem allocMem_inv {segSize : Nat} {after : Run} (allowed : Allowed run (.allocMem segSize))
    (stepped : (Call.allocMem segSize).step run = .ok after) : Inv after := by
  obtain ⟨-, clear⟩ := allowed
  cases found : run.heap.freeMemSegs.find? fun seg => decide (segSize ≤ seg.size) with
  | some seg =>
    rw [found] at clear
    obtain ⟨left, taken, clean⟩ := takeFree_found inv found clear
    simp only [Call.step, HeapMem.allocMem, taken, Except.ok.injEq] at stepped
    subst stepped
    exact ⟨by rw [← List.append_assoc, ← inv.segs]; rfl, clean, inv.below⟩
  | none =>
    rw [found] at clear
    obtain ⟨fits, clear⟩ := clear
    have taken : HeapMem.takeFree segSize run.heap.freeMemSegs = none := by
      rw [HeapMem.takeFree, replaceFirst_eq_none.mpr found]
      rfl
    simp only [Call.step, HeapMem.allocMem, taken] at stepped
    cases grown : (run.heap.setMemSegs (run.heap.memSegs ++
        [MemSegment.make run.heap.heapend segSize])).expandHeap segSize with
    | error fault => simp [grown] at stepped
    | ok heap =>
      rw [grown] at stepped
      cases stepped
      obtain rfl := expandHeap_ok grown
      have raised : run.heap.heapend ≤ (run.heap.heapend + segSize) % 2 ^ 64 := by
        rw [Nat.mod_eq_of_lt fits]
        omega
      refine ⟨by rw [← List.append_assoc, ← inv.segs]; rfl, ?_, ?_⟩
      · apply inv.clean.adopt (make_sound fits)
        · exact fun seg member => clear seg (List.mem_append_left _ member)
        · exact fun seg member => clear seg (List.mem_append_right _ member)
        · intro range given vAddr above below
          have low := inv.below range given vAddr below
          rw [mem_make fits] at above
          omega
      · intro range given vAddr inside
        exact Nat.lt_of_lt_of_le (inv.below range given vAddr inside) raised

theorem grow_inv {size : Nat} {heap : HeapMem} (fits : run.heap.heapend + size < 2 ^ 64)
    (clear : Clear (MemSegment.make run.heap.heapend size) run.live)
    (grown : run.heap.expandHeap size = .ok heap) :
    Inv { run with
      heap := heap
      brks := run.brks ++ [MemSegment.make run.heap.heapend size] } := by
  obtain rfl := expandHeap_ok grown
  refine ⟨inv.segs, ⟨inv.clean.soundLive, inv.clean.soundFree, inv.clean.liveApart,
    inv.clean.freeApart, inv.clean.cross, ?_⟩, ?_⟩
  · intro seg member range given
    rcases List.mem_append.mp given with old | last
    · exact inv.clean.given seg member range old
    · rw [List.mem_singleton.mp last]
      exact (clear seg member).symm
  · intro range given vAddr inside
    have raised : (run.heap.heapend + size) % 2 ^ 64 = run.heap.heapend + size :=
      Nat.mod_eq_of_lt fits
    have bound : vAddr < run.heap.heapend + size := by
      rcases List.mem_append.mp given with old | last
      · exact Nat.lt_of_lt_of_le (inv.below range old vAddr inside) (by omega)
      · rw [List.mem_singleton.mp last, mem_make fits] at inside
        exact inside.2
    exact bound.trans_eq raised.symm

theorem expandHeap_inv {size : Nat} {after : Run} (allowed : Allowed run (.expandHeap size))
    (stepped : (Call.expandHeap size).step run = .ok after) : Inv after := by
  simp only [Call.step] at stepped
  split at stepped
  · exact absurd stepped (by simp)
  · rename_i heap grown
    cases stepped
    exact grow_inv inv allowed.1 allowed.2 grown

theorem brk_inv {addr : Nat} {after : Run} (allowed : Allowed run (.brk addr))
    (stepped : (Call.brk addr).step run = .ok after) : Inv after := by
  simp only [Call.step, HeapMem.brk] at stepped
  split at stepped
  · exact absurd stepped (by simp)
  · rename_i heap grown
    cases stepped
    split at grown
    · rename_i above
      refine grow_inv inv ?_ allowed.2 grown
      have small := allowed.1
      omega
    · exact absurd grown (by simp)

theorem carve_clean {baseAddr segSize : Nat} {seg : MemSegment}
    (found : (run.heap.freeMemSegs.find? fun seg => seg.containsRange baseAddr segSize) = some seg)
    (small : baseAddr + segSize < 2 ^ 64)
    (room : seg.baseAddr = baseAddr → seg.topAddr ≠ baseAddr + segSize →
      seg.topAddr + segSize < 2 ^ 64 ∧
        Clear (MemSegment.make seg.topAddr segSize) (run.live ++ run.heap.freeMemSegs)) :
    ∃ free, HeapMem.carve baseAddr segSize run.heap.freeMemSegs = some free ∧
      Clean run.live free run.brks ∧
      (Clear (MemSegment.make baseAddr segSize) run.brks →
        Clean (run.live ++ [MemSegment.make baseAddr segSize]) free run.brks) := by
  obtain ⟨inside, front, back, split, replaced⟩ := replaceFirst_of_find
    (fun seg => (HeapMem.splitFree baseAddr segSize seg).1) found
  have member : seg ∈ run.heap.freeMemSegs := List.mem_of_find?_eq_some found
  have sound := inv.clean.soundFree seg member
  obtain ⟨pieces, inner⟩ := splitFree_pieces sound small inside fun atBase notTop =>
    (room atBase notTop).1
  have old : run.heap.freeMemSegs.Perm (seg :: (front ++ back)) := split ▸ List.perm_middle
  have new := perm_replaced front (HeapMem.splitFree baseAddr segSize seg).1 back
    (HeapMem.splitFree baseAddr segSize seg).2
  have outer : ∀ piece ∈ (HeapMem.splitFree baseAddr segSize seg).1 ++
      (HeapMem.splitFree baseAddr segSize seg).2, ∀ other ∈ front ++ back, Apart piece other := by
    intro piece present other rest
    apply (pieces piece present).2.2 other (apart_of_perm inv.clean.freeApart old other rest)
    intro atBase notTop
    apply (room atBase notTop).2 other
    exact List.mem_append_right _ (old.mem_iff.mpr (List.mem_cons_of_mem _ rest))
  have away : ∀ piece ∈ (HeapMem.splitFree baseAddr segSize seg).1 ++
      (HeapMem.splitFree baseAddr segSize seg).2, ∀ other ∈ run.live, Apart other piece := by
    intro piece present other used
    apply Apart.symm
    apply (pieces piece present).2.2 other (inv.clean.cross other used seg member).symm
    intro atBase notTop
    exact (room atBase notTop).2 other (List.mem_append_left _ used)
  have soundPieces := fun piece present => (pieces piece present).1
  refine ⟨_, by rw [HeapMem.carve, replaced]; rfl, ?_, fun clear => ?_⟩
  · exact inv.clean.cut old new soundPieces inner outer away
  · apply inv.clean.handOut old new soundPieces inner outer away (make_sound small) _ _ clear
    · intro vAddr within
      rw [mem_make small] at within
      have bounds := containsRange_bounds sound small inside
      rw [mem_seg]
      omega
    · exact fun piece present => (pieces piece present).2.1

theorem allocMemAt_inv {baseAddr segSize : Nat} {after : Run}
    (allowed : Allowed run (.allocMemAt baseAddr segSize))
    (stepped : (Call.allocMemAt baseAddr segSize).step run = .ok after) : Inv after := by
  obtain ⟨-, -, -, condition⟩ := allowed
  cases found : run.heap.freeMemSegs.find? fun seg => seg.containsRange baseAddr segSize with
  | none =>
    have carved : HeapMem.carve baseAddr segSize run.heap.freeMemSegs = none := by
      rw [HeapMem.carve, replaceFirst_eq_none.mpr found]
      rfl
    simp only [Call.step, HeapMem.allocMemAt, carved, List.drop_length, List.append_nil,
      Except.ok.injEq] at stepped
    subst stepped
    exact inv
  | some seg =>
    obtain ⟨-, small, room, clear⟩ := condition seg found
    obtain ⟨free, carved, clean, cleanMore⟩ := carve_clean inv found small room
    simp only [Call.step, HeapMem.allocMemAt, carved] at stepped
    split at stepped
    · exact absurd stepped (by simp)
    · rename_i heap result
      cases stepped
      split at result
      · cases result
        refine ⟨?_, ?_, inv.below⟩
        · simpa [HeapMem.memSegs] using inv.segs
        · simpa [HeapMem.memSegs] using clean
      · rename_i kept
        split at result
        · exact absurd result (by simp)
        · cases result
          refine ⟨?_, ?_, inv.below⟩
          · have segs : run.heap.mem.memSegs = run.statics ++ run.live := inv.segs
            simp [HeapMem.memSegs, HeapMem.setMemSegs, segs]
          · simpa [HeapMem.memSegs, HeapMem.setMemSegs] using cleanMore (clear kept)

-- What is left of a segment in use and what is freed of it keep clear of each other.
theorem release_live {baseAddr size : Nat} {seg : MemSegment}
    (found : (run.live.find? fun seg => decide (seg.baseAddr = baseAddr)) = some seg)
    (inside : size ≤ seg.size) :
    ∃ left, HeapMem.release baseAddr size run.live = .ok (some left) ∧
      Clean left run.heap.freeMemSegs run.brks ∧ baseAddr + size < 2 ^ 64 ∧
      Clear (MemSegment.make baseAddr size) left ∧
      Clear (MemSegment.make baseAddr size) run.heap.freeMemSegs := by
  obtain ⟨rfl, front, back, split, released⟩ := release_some size found
  have member : seg ∈ run.live := List.mem_of_find?_eq_some found
  have sound := inv.clean.soundLive seg member
  have fits := sound.fits
  have top := sound.top
  have small : seg.baseAddr + size < 2 ^ 64 := by omega
  obtain ⟨restSound, restMem⟩ := drop_front_sound sound inside
  have old : run.live.Perm (seg :: (front ++ back)) := split ▸ List.perm_middle
  have new := perm_replaced front (if size < seg.size then
    [(seg.setBaseAddr ((seg.baseAddr + size) % 2 ^ 64)).setSize (seg.size - size)] else []) back []
  rw [List.append_nil, List.append_nil] at new
  have freed : ∀ vAddr, vAddr ∈ MemSegment.make seg.baseAddr size → vAddr ∈ seg := by
    intro vAddr within
    rw [mem_make small] at within
    rw [mem_seg]
    omega
  have remains : ∀ part ∈ (if size < seg.size then
      [(seg.setBaseAddr ((seg.baseAddr + size) % 2 ^ 64)).setSize (seg.size - size)] else []),
      Sound part ∧ ∀ vAddr, vAddr ∈ part → seg.baseAddr + size ≤ vAddr ∧ vAddr < seg.topAddr := by
    intro part present
    split at present
    · rw [List.mem_singleton.mp present]
      exact ⟨restSound, fun vAddr => (restMem vAddr).mp⟩
    · exact absurd present (by simp)
  refine ⟨_, by rw [released, if_neg (Nat.not_lt.mpr inside)], ?_, small, ?_, ?_⟩
  · apply inv.clean.shrink old new (fun part present => (remains part present).1)
    · split <;> simp
    · intro part present vAddr within
      have bounds := (remains part present).2 vAddr within
      rw [mem_seg]
      omega
  · intro other present
    rcases List.mem_append.mp (new.mem_iff.mp present) with part | rest
    · intro vAddr one two
      have bounds := (remains other part).2 vAddr two
      rw [mem_make small] at one
      omega
    · exact (apart_of_perm inv.clean.liveApart old other rest).mono freed
  · intro other present
    exact (inv.clean.cross seg member other present).mono freed

theorem deallocMem_inv {baseAddr size : Nat} {after : Run}
    (allowed : Allowed run (.deallocMem baseAddr size))
    (stepped : (Call.deallocMem baseAddr size).step run = .ok after) : Inv after := by
  obtain ⟨-, -, condition⟩ := allowed
  simp only [Call.step, HeapMem.deallocMem, inv.segs, release_append] at stepped
  cases loaded : run.statics.find? fun seg => decide (seg.baseAddr = baseAddr) with
  | some seg =>
    obtain ⟨rfl, front, back, split, released⟩ := release_some size loaded
    rw [released] at stepped
    by_cases beyond : seg.size < size
    · simp [beyond] at stepped
    · simp only [releaseRest, released, if_neg beyond] at stepped
      cases stepped
      obtain ⟨fits, clear⟩ := condition seg loaded (Nat.not_lt.mp beyond)
      refine ⟨rfl, ?_, inv.below⟩
      apply refund_clean inv.clean fits
      · exact fun other member => clear other (List.mem_append_left _ member)
      · exact fun other member => clear other (List.mem_append_right _ member)
  | none =>
    simp only [releaseRest, release_none loaded] at stepped
    cases found : run.live.find? fun seg => decide (seg.baseAddr = baseAddr) with
    | none =>
      simp only [release_none found, Except.map, Option.map_none, Option.getD_none] at stepped
      cases stepped
      exact ⟨inv.segs, inv.clean, inv.below⟩
    | some seg =>
      by_cases beyond : seg.size < size
      · obtain ⟨-, front, back, -, released⟩ := release_some size found
        simp [released, beyond, Except.map] at stepped
      · obtain ⟨left, released, clean, fits, clearLive, clearFree⟩ :=
          release_live inv found (Nat.not_lt.mp beyond)
        simp only [released, Except.map, Option.map_some, Option.getD_some] at stepped
        cases stepped
        exact ⟨rfl, refund_clean clean fits clearLive clearFree, inv.below⟩

theorem step_inv {call : Call} {after : Run} (allowed : Allowed run call)
    (stepped : call.step run = .ok after) : Inv after := by
  cases call with
  | allocMem segSize => exact allocMem_inv inv allowed stepped
  | allocMemAt baseAddr segSize => exact allocMemAt_inv inv allowed stepped
  | deallocMem baseAddr size => exact deallocMem_inv inv allowed stepped
  | expandHeap size => exact expandHeap_inv inv allowed stepped
  | brk addr => exact brk_inv inv allowed stepped

end Steps

theorem reached_inv {run : Run} (reached : Reached run) : Inv run := by
  induction reached with
  | start started => exact started_inv started
  | call _ call allowed stepped ih => exact step_inv ih allowed stepped

/-- What the allocator promises of the segments it has handed out. -/
structure Safe (run : Run) : Prop where
  registered : run.heap.memSegs = run.statics ++ run.live
  live : run.live.Pairwise Apart
  cross : ∀ seg ∈ run.live, ∀ free ∈ run.heap.freeMemSegs, Apart seg free
  free : run.heap.freeMemSegs.Pairwise Apart
  given : ∀ seg ∈ run.live, ∀ range ∈ run.brks, Apart seg range

theorem allocMemAt_returns {run : Run} {baseAddr segSize result : Nat} {heap : HeapMem}
    (allowed : Allowed run (.allocMemAt baseAddr segSize))
    (returned : run.heap.allocMemAt baseAddr segSize = .ok (result, heap)) :
    result = baseAddr ↔ heap.memSegs = run.heap.memSegs ++ [MemSegment.make baseAddr segSize] := by
  obtain ⟨-, -, nonzero, condition⟩ := allowed
  have refused : ∀ {free : List MemSegment}, 0 = baseAddr ↔
      ({ run.heap with freeMemSegs := free } : HeapMem).memSegs =
        run.heap.memSegs ++ [MemSegment.make baseAddr segSize] := by
    intro free
    constructor
    · exact fun same => absurd same.symm nonzero
    · intro same
      exact absurd (congrArg List.length same) (by simp [HeapMem.memSegs])
  simp only [HeapMem.allocMemAt] at returned
  cases found : run.heap.freeMemSegs.find? fun seg => seg.containsRange baseAddr segSize with
  | none =>
    have carved : HeapMem.carve baseAddr segSize run.heap.freeMemSegs = none := by
      rw [HeapMem.carve, replaceFirst_eq_none.mpr found]
      rfl
    rw [carved] at returned
    cases returned
    exact refused
  | some seg =>
    obtain ⟨survives, -⟩ := condition seg found
    split at returned
    · cases returned
      exact refused
    · split at returned
      · cases returned
        exact refused
      · rename_i kept
        split at returned
        · exact absurd returned (by simp)
        · cases returned
          have same := survives.resolve_left kept
          exact ⟨fun _ => rfl, fun _ => same⟩

theorem heap_safe {run : Run} (reached : Reached run) :
    Safe run ∧ ∀ baseAddr segSize result heap, Allowed run (.allocMemAt baseAddr segSize) →
      run.heap.allocMemAt baseAddr segSize = .ok (result, heap) →
      (result = baseAddr ↔
        heap.memSegs = run.heap.memSegs ++ [MemSegment.make baseAddr segSize]) := by
  have inv := reached_inv reached
  refine ⟨⟨inv.segs, inv.clean.liveApart, inv.clean.cross, inv.clean.freeApart, inv.clean.given⟩, ?_⟩
  intro baseAddr segSize result heap allowed returned
  exact allocMemAt_returns allowed returned

/-- A run without loader segments whose heap starts at address 16 and has 1000 bytes. -/
def small (free live brks : List MemSegment) (heapend : Nat) : Run where
  heap :=
    { mem := { RevMem.new 2097152 16 16 heapend with memSegs := live }
      freeMemSegs := free
      maxHeapSize := 1000 }
  statics := []
  live := live
  brks := brks

theorem small_started : Started (small [⟨16, 1000, 1016⟩] [] [] 16) where
  init := ⟨(small [] [] [] 0).heap, 15, rfl, rfl, rfl, by decide⟩
  live := rfl
  brks := rfl

-- An allocation, a partial free and a cut from the middle of the free segment.
theorem heap_safe_three_calls :
    Safe (small [⟨80, 420, 500⟩, ⟨600, 416, 1016⟩, ⟨16, 32, 48⟩] [⟨48, 32, 80⟩, ⟨500, 100, 600⟩]
      [] 16) := by
  have first : Reached (small [⟨80, 936, 1016⟩] [⟨16, 64, 80⟩] [] 16) :=
    (Reached.start small_started).call (.allocMem 64) ⟨by decide, by simp [small, Clear]⟩ rfl
  have second : Reached (small [⟨80, 420, 500⟩, ⟨600, 416, 1016⟩] [⟨16, 64, 80⟩, ⟨500, 100, 600⟩]
      [] 16) := by
    refine first.call (.allocMemAt 500 100) ⟨by decide, by decide, by decide, ?_⟩ rfl
    intro seg found
    have same : seg = ⟨80, 936, 1016⟩ := by
      have first := List.mem_of_find?_eq_some found
      simpa [small] using first
    subst same
    exact ⟨.inr rfl, by simp [small, Clear]⟩
  have third : Reached (small [⟨80, 420, 500⟩, ⟨600, 416, 1016⟩, ⟨16, 32, 48⟩]
      [⟨48, 32, 80⟩, ⟨500, 100, 600⟩] [] 16) :=
    second.call (.deallocMem 16 32) ⟨by decide, by decide, by simp [small]⟩ rfl
  exact (heap_safe third).1

-- The break is raised over the free list, which then hands out the same addresses.
theorem heap_brk_overlaps :
    Started (small [⟨16, 1000, 1016⟩] [] [] 16) ∧
      (Call.brk 116).step (small [⟨16, 1000, 1016⟩] [] [] 16) =
        .ok (small [⟨16, 1000, 1016⟩] [] [⟨16, 100, 116⟩] 116) ∧
      (Call.allocMem 50).step (small [⟨16, 1000, 1016⟩] [] [⟨16, 100, 116⟩] 116) =
        .ok (small [⟨66, 950, 1016⟩] [⟨16, 50, 66⟩] [⟨16, 100, 116⟩] 116) ∧
      ¬ Safe (small [⟨66, 950, 1016⟩] [⟨16, 50, 66⟩] [⟨16, 100, 116⟩] 116) := by
  refine ⟨small_started, rfl, rfl, fun safe => ?_⟩
  have apart := safe.given ⟨16, 50, 66⟩ (by simp [small]) ⟨16, 100, 116⟩ (by simp [small])
  exact apart 16 (by rw [mem_seg]; decide) (by rw [mem_seg]; decide)

end RevCPU.Heap
