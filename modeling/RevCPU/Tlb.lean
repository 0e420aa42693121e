import RevCPU.MemRefine
/-!
The TLB of RevMem over whole runs of SearchTLB, FlushTLB and CalcPhysAddr, which calls AddToTLB on a
miss. The map and the LRU queue are one `LruCache.Cache`; here the capacity, the order of use and the
cached translations are followed through every call, and two memories that differ in tlbSize are
run side by side.
-/
namespace RevCPU.Tlb
open Mem LruCache MemRefine

/-- The physical address the page map gives, for a page that has a frame. -/
def translation (mem : RevMem) (vAddr : Nat) : Option Nat :=
  (mem.pageMap (vAddr >>> addrShift)).map fun frame =>
    RevMem.pageBase frame + ((pageSize - 1) &&& vAddr)

inductive Call where
  | searchTLB (vAddr : Nat)
  | flushTLB
  | calcPhysAddr (vAddr : Nat)
deriving Repr, DecidableEq

/-- A run: the addresses CalcPhysAddr returned, oldest first, and the uses of cached addresses,
newest first. -/
structure Trace where
  mem : RevMem
  returned : List Nat
  uses : List Nat

namespace Call

def Valid (mem : RevMem) : Call → Prop
  | searchTLB _ | flushTLB => True
  | calcPhysAddr vAddr => mem.isValidVirtAddr vAddr = true

-- A search that misses uses nothing.
def step (trace : Trace) : Call → Except MemFault Trace
  | searchTLB vAddr =>
    .ok ⟨(trace.mem.searchTLB vAddr).2, trace.returned,
      if vAddr ∈ trace.mem.tlb.keys then vAddr :: trace.uses else trace.uses⟩
  | flushTLB => .ok { trace with mem := trace.mem.flushTLB }
  | calcPhysAddr vAddr =>
    match trace.mem.calcPhysAddr (vAddr >>> addrShift) vAddr with
    | .error fault => .error fault
    | .ok (physAddr, mem) => .ok ⟨mem, trace.returned ++ [physAddr], vAddr :: trace.uses⟩

end Call

def run (trace : Trace) : List Call → Except MemFault Trace
  | [] => .ok trace
  | call :: rest =>
    match call.step trace with
    | .error fault => .error fault
    | .ok trace => run trace rest

theorem translated_ne (frame vAddr : Nat) :
    RevMem.pageBase frame + ((pageSize - 1) &&& vAddr) ≠ invalidAddr := by
  have base : RevMem.pageBase frame < 2 ^ 32 := Nat.mod_lt _ (by decide)
  have offset : (pageSize - 1) &&& vAddr ≤ pageSize - 1 := Nat.and_le_left
  simp only [pageSize, invalidAddr] at *
  omega

theorem translation_ne {mem : RevMem} {vAddr physAddr : Nat}
    (translated : translation mem vAddr = some physAddr) : physAddr ≠ invalidAddr := by
  obtain ⟨frame, -, rfl⟩ := Option.map_eq_some_iff.mp translated
  exact translated_ne frame vAddr

/-- What every call keeps, for the memory a run started from. -/
structure Kept (start : RevMem) (trace : Trace) : Prop where
  layout : layout trace.mem = layout start
  bounded : trace.mem.tlb.keys.length ≤ start.tlbSize
  ordered : Cache.InOrder trace.uses trace.mem.tlb.keys
  cached : ∀ vAddr physAddr, trace.mem.tlb.lookup vAddr = some physAddr →
    translation trace.mem vAddr = some physAddr

section Steps
variable {start : RevMem} {trace : Trace}

theorem searchTLB_tlb (mem : RevMem) (vAddr : Nat) :
    (mem.searchTLB vAddr).2.tlb = (mem.tlb.search vAddr).2 := by
  unfold RevMem.searchTLB
  split
  · rename_i miss
    unfold Cache.search at miss ⊢
    split at miss <;> simp_all
  · rename_i found
    simp [found]

theorem searchTLB_pages (mem : RevMem) (vAddr : Nat) :
    (mem.searchTLB vAddr).2.pageMap = mem.pageMap ∧ (mem.searchTLB vAddr).2.nextPage = mem.nextPage ∧
      MemRefine.layout (mem.searchTLB vAddr).2 = MemRefine.layout mem := by
  unfold RevMem.searchTLB
  split <;> exact ⟨rfl, rfl, rfl⟩

theorem searchTLB_kept (kept : Kept start trace) (vAddr : Nat) (returned : List Nat) :
    Kept start ⟨(trace.mem.searchTLB vAddr).2, returned,
      if vAddr ∈ trace.mem.tlb.keys then vAddr :: trace.uses else trace.uses⟩ := by
  obtain ⟨pages, -, layoutSame⟩ := searchTLB_pages trace.mem vAddr
  constructor
  · exact layoutSame.trans kept.layout
  · rw [searchTLB_tlb]
    exact Nat.le_trans (trace.mem.tlb.length_search vAddr) kept.bounded
  · rw [searchTLB_tlb]
    exact kept.ordered.search vAddr
  · intro other physAddr found
    rw [searchTLB_tlb, Cache.lookup_search] at found
    have translated := kept.cached other physAddr found
    simpa [translation, pages] using translated

theorem flushTLB_kept (kept : Kept start trace) : Kept start { trace with mem := trace.mem.flushTLB } :=
  ⟨kept.layout, Nat.zero_le _, Cache.inOrder_nil _, fun _ _ found =>
    absurd found (by simp [RevMem.flushTLB])⟩

theorem searchTLB_miss {mem : RevMem} {vAddr : Nat} (miss : mem.tlb.lookup vAddr = none) :
    mem.searchTLB vAddr = (invalidAddr, { mem with memStats := { mem.memStats with
      tlbMisses := (mem.memStats.tlbMisses + 1) % 2 ^ 64 } }) := by
  have result := mem.tlb.search_result vAddr
  unfold RevMem.searchTLB
  split
  · rfl
  · rename_i found
    rw [found, miss] at result
    exact absurd result (by simp)

theorem calcPhysAddr_cached {mem : RevMem} {vAddr physAddr : Nat} (page : Nat)
    (hit : mem.tlb.lookup vAddr = some physAddr) (apart : physAddr ≠ invalidAddr) :
    mem.calcPhysAddr page vAddr = .ok (physAddr, (mem.searchTLB vAddr).2) := by
  have result := searchTLB_result mem vAddr
  rw [hit, Option.getD_some] at result
  rw [← result] at apart ⊢
  rw [RevMem.calcPhysAddr]
  exact if_neg apart

theorem calcPhysAddr_missed {mem after : RevMem} {page vAddr physAddr : Nat}
    (miss : mem.tlb.lookup vAddr = none) (called : mem.calcPhysAddr page vAddr = .ok (physAddr, after)) :
    mem.isValidVirtAddr vAddr = true ∧
      physAddr = RevMem.pageBase ((mem.searchTLB vAddr).2.touchPage page).1 + vAddr % pageSize ∧
      ((mem.searchTLB vAddr).2.touchPage page).2.addToTLB vAddr physAddr = .ok after := by
  rw [searchTLB_miss miss]
  rw [RevMem.calcPhysAddr, searchTLB_miss miss] at called
  dsimp only at called ⊢
  rw [if_pos rfl, page_offset] at called
  split at called
  · rename_i valid
    split at called
    · cases called
    · rename_i cached added
      cases called
      exact ⟨valid, rfl, added⟩
  · cases called

theorem calcPhysAddr_noRoom {mem : RevMem} {vAddr : Nat} (noRoom : mem.tlbSize = 0)
    (vacant : mem.tlb.keys = []) (valid : mem.isValidVirtAddr vAddr = true) (page : Nat) :
    mem.calcPhysAddr page vAddr = .error .emptyLRU := by
  have miss : mem.tlb.lookup vAddr = none := Cache.not_mem_keys.mp (by simp [vacant])
  let missed : RevMem := { mem with memStats := { mem.memStats with
    tlbMisses := (mem.memStats.tlbMisses + 1) % 2 ^ 64 } }
  have stillValid : missed.isValidVirtAddr vAddr = true := valid
  obtain ⟨tlbSame, sizeSame⟩ := touchPage_tlb missed page
  have full : ∀ physAddr, (missed.touchPage page).2.addToTLB vAddr physAddr = .error .emptyLRU := by
    intro physAddr
    have added : missed.tlb.add 0 vAddr physAddr = none := Cache.add_vacant vacant physAddr
    simp only [RevMem.addToTLB, tlbSame, sizeSame, show missed.tlbSize = 0 from noRoom, added]
  simp only [RevMem.calcPhysAddr, searchTLB_miss miss, if_true]
  rw [if_pos stillValid]
  simp only [full, missed]

theorem touchPage_fields (mem : RevMem) (page : Nat) :
    (mem.touchPage page).2.tlb = mem.tlb ∧
      MemRefine.layout (mem.touchPage page).2 = MemRefine.layout mem := by
  unfold RevMem.touchPage
  split <;> exact ⟨rfl, rfl⟩

theorem touchPage_owner (mem : RevMem) (page : Nat) :
    (mem.touchPage page).2.pageMap page = some (mem.touchPage page).1 := by
  unfold RevMem.touchPage
  split
  · simp
  · assumption

-- A page keeps its frame when another one is touched.
theorem touchPage_keeps (mem : RevMem) (page : Nat) {other frame : Nat}
    (owner : mem.pageMap other = some frame) :
    (mem.touchPage page).2.pageMap other = some frame := by
  unfold RevMem.touchPage
  split
  · rename_i fresh
    have differs : other ≠ page := fun same => by simp [same, fresh] at owner
    simp [Function.update_of_ne differs, owner]
  · exact owner

theorem translation_touchPage (mem : RevMem) (page : Nat) {vAddr physAddr : Nat}
    (translated : translation mem vAddr = some physAddr) :
    translation (mem.touchPage page).2 vAddr = some physAddr := by
  obtain ⟨frame, owner, rfl⟩ := Option.map_eq_some_iff.mp translated
  simp [translation, touchPage_keeps mem page owner]

/-- The page map and its next frame after an access to the page, and the address CalcPhysAddr gives:
nothing here reads the TLB. -/
def touched (mem : RevMem) (vAddr : Nat) : Nat × (Nat → Option Nat) × Nat :=
  (RevMem.pageBase (mem.touchPage (vAddr >>> addrShift)).1 + ((pageSize - 1) &&& vAddr),
    (mem.touchPage (vAddr >>> addrShift)).2.pageMap, (mem.touchPage (vAddr >>> addrShift)).2.nextPage)

theorem calcPhysAddr_hit (kept : Kept start trace) {vAddr physAddr : Nat}
    (hit : trace.mem.tlb.lookup vAddr = some physAddr) :
    trace.mem.calcPhysAddr (vAddr >>> addrShift) vAddr =
      .ok (physAddr, (trace.mem.searchTLB vAddr).2) ∧
    touched trace.mem vAddr = (physAddr, trace.mem.pageMap, trace.mem.nextPage) := by
  have translated := kept.cached vAddr physAddr hit
  constructor
  · exact calcPhysAddr_cached _ hit (translation_ne translated)
  · obtain ⟨frame, owner, rfl⟩ := Option.map_eq_some_iff.mp translated
    simp [touched, RevMem.touchPage, owner]

/-- A valid address that the TLB does not hold is translated through the page map. -/
theorem calcPhysAddr_first {mem : RevMem} (positive : mem.tlbSize ≠ 0) {vAddr : Nat}
    (valid : mem.isValidVirtAddr vAddr = true) (miss : mem.tlb.lookup vAddr = none) :
    ∃ after, mem.calcPhysAddr (vAddr >>> addrShift) vAddr = .ok ((touched mem vAddr).1, after) ∧
      mem.tlb.add mem.tlbSize vAddr (touched mem vAddr).1 = some after.tlb ∧
      layout after = layout mem ∧ after.pageMap = (touched mem vAddr).2.1 ∧
      after.nextPage = (touched mem vAddr).2.2 := by
  let missed : RevMem := { mem with memStats := { mem.memStats with
    tlbMisses := (mem.memStats.tlbMisses + 1) % 2 ^ 64 } }
  have stillValid : missed.isValidVirtAddr vAddr = true := valid
  obtain ⟨tlbSame, layoutSame⟩ := touchPage_fields missed (vAddr >>> addrShift)
  have size : (missed.touchPage (vAddr >>> addrShift)).2.tlbSize = mem.tlbSize := (layout_fields layoutSame).2
  have sameTouch : touched missed vAddr = touched mem vAddr := by
    unfold touched RevMem.touchPage
    cases owner : mem.pageMap (vAddr >>> addrShift) <;> rfl
  obtain ⟨tlb, added⟩ := mem.tlb.add_succeeds positive vAddr (touched mem vAddr).1
  refine ⟨{ (missed.touchPage (vAddr >>> addrShift)).2 with tlb := tlb }, ?_, added, layoutSame, ?_, ?_⟩
  · have filled : (missed.touchPage (vAddr >>> addrShift)).2.addToTLB vAddr (touched mem vAddr).1 =
        .ok { (missed.touchPage (vAddr >>> addrShift)).2 with tlb := tlb } := by
      have added : missed.tlb.add mem.tlbSize vAddr (touched mem vAddr).1 = some tlb := added
      simp only [RevMem.addToTLB, tlbSame, size, added]
    rw [← sameTouch] at filled ⊢
    simp only [RevMem.calcPhysAddr, searchTLB_miss miss, if_true]
    rw [if_pos stillValid]
    simp only [touched] at filled ⊢
    rw [filled]
  · rw [← sameTouch]
    rfl
  · rw [← sameTouch]
    rfl

theorem calcPhysAddr_miss (kept : Kept start trace) (positive : start.tlbSize ≠ 0) {vAddr : Nat}
    (valid : start.isValidVirtAddr vAddr = true) (miss : trace.mem.tlb.lookup vAddr = none) :
    ∃ after, trace.mem.calcPhysAddr (vAddr >>> addrShift) vAddr =
        .ok ((touched trace.mem vAddr).1, after) ∧
      trace.mem.tlb.add start.tlbSize vAddr (touched trace.mem vAddr).1 = some after.tlb ∧
      layout after = layout start ∧ after.pageMap = (touched trace.mem vAddr).2.1 ∧
      after.nextPage = (touched trace.mem vAddr).2.2 := by
  have size := (layout_fields kept.layout).2
  rw [← size] at positive ⊢
  rw [← isValidVirtAddr_layout kept.layout] at valid
  rw [← kept.layout]
  exact calcPhysAddr_first positive valid miss

theorem calcPhysAddr_kept (kept : Kept start trace) (positive : start.tlbSize ≠ 0) {vAddr : Nat}
    (valid : start.isValidVirtAddr vAddr = true) :
    ∃ after, trace.mem.calcPhysAddr (vAddr >>> addrShift) vAddr =
        .ok ((touched trace.mem vAddr).1, after) ∧
      (∀ returned, Kept start ⟨after, returned, vAddr :: trace.uses⟩) ∧
      after.pageMap = (touched trace.mem vAddr).2.1 ∧
      after.nextPage = (touched trace.mem vAddr).2.2 ∧
      ∀ victim ∈ trace.mem.tlb.keys, victim ∉ after.tlb.keys → ∀ other ∈ trace.mem.tlb.keys,
        other ≠ victim → trace.uses.idxOf other < trace.uses.idxOf victim := by
  cases found : trace.mem.tlb.lookup vAddr with
  | some physAddr =>
    have member : vAddr ∈ trace.mem.tlb.keys := Cache.mem_keys.mpr ⟨physAddr, found⟩
    obtain ⟨returns, settled⟩ := calcPhysAddr_hit kept found
    obtain ⟨pages, next, -⟩ := searchTLB_pages trace.mem vAddr
    rw [settled]
    refine ⟨_, returns, fun returned => ?_, pages, next, fun victim cached gone => ?_⟩
    · simpa [if_pos member] using searchTLB_kept kept vAddr returned
    · rw [searchTLB_tlb, Cache.mem_keys] at gone
      simp only [Cache.lookup_search, ← Cache.mem_keys] at gone
      exact absurd cached gone
  | none =>
    obtain ⟨after, returns, added, layoutSame, pages, next⟩ :=
      calcPhysAddr_miss kept positive valid found
    have translated : translation after vAddr = some (touched trace.mem vAddr).1 := by
      simp [translation, pages, touched, touchPage_owner]
    refine ⟨after, returns, fun returned => ⟨layoutSame, ?_, ?_, ?_⟩, pages, next, ?_⟩
    · exact Cache.length_add added kept.bounded positive
    · exact kept.ordered.add added
    · intro other physAddr bound
      rcases Cache.lookup_add added other bound with ⟨rfl, rfl⟩ | old
      · exact translated
      · have before := translation_touchPage trace.mem (vAddr >>> addrShift)
          (kept.cached other physAddr old)
        simpa [translation, pages, touched] using before
    · intro victim cached gone
      exact kept.ordered.victim added cached gone

theorem step_calcPhysAddr {vAddr physAddr : Nat} {mem : RevMem}
    (returns : trace.mem.calcPhysAddr (vAddr >>> addrShift) vAddr = .ok (physAddr, mem)) :
    (Call.calcPhysAddr vAddr).step trace =
      .ok ⟨mem, trace.returned ++ [physAddr], vAddr :: trace.uses⟩ := by
  simp only [Call.step, returns]

end Steps

section Sizes
variable {first second : RevMem}

/-- Two runs that differ at most in what is cached. -/
structure Agree (one two : Trace) : Prop where
  pageMap : one.mem.pageMap = two.mem.pageMap
  nextPage : one.mem.nextPage = two.mem.nextPage
  returned : one.returned = two.returned

theorem touched_congr {one two : RevMem} (pageMap : one.pageMap = two.pageMap)
    (nextPage : one.nextPage = two.nextPage) (vAddr : Nat) :
    touched one vAddr = touched two vAddr := by
  simp only [touched, RevMem.touchPage, pageMap, nextPage]
  split <;> simp [pageMap, nextPage]

theorem step_agree {one two : Trace} (keptOne : Kept first one) (keptTwo : Kept second two)
    (positiveOne : first.tlbSize ≠ 0) (positiveTwo : second.tlbSize ≠ 0) (agree : Agree one two)
    {call : Call} (validOne : call.Valid first) (validTwo : call.Valid second) :
    ∃ oneAfter twoAfter, call.step one = .ok oneAfter ∧ call.step two = .ok twoAfter ∧
      Kept first oneAfter ∧ Kept second twoAfter ∧ Agree oneAfter twoAfter := by
  cases call with
  | searchTLB vAddr =>
    obtain ⟨onePages, oneNext, -⟩ := searchTLB_pages one.mem vAddr
    obtain ⟨twoPages, twoNext, -⟩ := searchTLB_pages two.mem vAddr
    refine ⟨_, _, rfl, rfl, searchTLB_kept keptOne vAddr _, searchTLB_kept keptTwo vAddr _, ?_⟩
    exact ⟨by rw [onePages, twoPages, agree.pageMap], by rw [oneNext, twoNext, agree.nextPage],
      agree.returned⟩
  | flushTLB =>
    exact ⟨_, _, rfl, rfl, flushTLB_kept keptOne, flushTLB_kept keptTwo, agree.pageMap,
      agree.nextPage, agree.returned⟩
  | calcPhysAddr vAddr =>
    obtain ⟨oneAfter, oneReturns, oneKeeps, onePages, oneNext, -⟩ :=
      calcPhysAddr_kept keptOne positiveOne validOne
    obtain ⟨twoAfter, twoReturns, twoKeeps, twoPages, twoNext, -⟩ :=
      calcPhysAddr_kept keptTwo positiveTwo validTwo
    have same := touched_congr agree.pageMap agree.nextPage vAddr
    refine ⟨_, _, step_calcPhysAddr oneReturns, step_calcPhysAddr twoReturns, oneKeeps _,
      twoKeeps _, ?_⟩
    exact ⟨by rw [onePages, twoPages, same], by rw [oneNext, twoNext, same],
      by rw [agree.returned, same]⟩

theorem run_agree {one two : Trace} (keptOne : Kept first one) (keptTwo : Kept second two)
    (positiveOne : first.tlbSize ≠ 0) (positiveTwo : second.tlbSize ≠ 0) (agree : Agree one two)
    {calls : List Call} (validOne : ∀ call ∈ calls, call.Valid first)
    (validTwo : ∀ call ∈ calls, call.Valid second) :
    ∃ oneAfter twoAfter, run one calls = .ok oneAfter ∧ run two calls = .ok twoAfter ∧
      Kept first oneAfter ∧ Agree oneAfter twoAfter := by
  induction calls generalizing one two with
  | nil => exact ⟨one, two, rfl, rfl, keptOne, agree⟩
  | cons call rest ih =>
    obtain ⟨oneNext, twoNext, stepOne, stepTwo, oneKeeps, twoKeeps, still⟩ :=
      step_agree keptOne keptTwo positiveOne positiveTwo agree
        (validOne call List.mem_cons_self) (validTwo call List.mem_cons_self)
    obtain ⟨oneAfter, twoAfter, ranOne, ranTwo, keeps, final⟩ := ih oneKeeps twoKeeps still
      (fun other member => validOne other (List.mem_cons_of_mem _ member))
      (fun other member => validTwo other (List.mem_cons_of_mem _ member))
    exact ⟨oneAfter, twoAfter, by rw [run, stepOne]; exact ranOne, by rw [run, stepTwo]; exact ranTwo,
      keeps, final⟩

end Sizes

/-- Map and queue hold the same addresses once each, every map entry names its own queue node, and
the queue is bounded, in order of use and backed by the page map. -/
structure LruCoherent (tlbSize : Nat) (trace : Trace) : Prop where
  keys : ∀ vAddr, (∃ physAddr node, trace.mem.tlb.table vAddr = some (physAddr, node)) ↔
    vAddr ∈ trace.mem.tlb.queue.nodes.map Prod.snd
  distinct : (trace.mem.tlb.queue.nodes.map Prod.snd).Nodup
  linked : ∀ vAddr physAddr node, trace.mem.tlb.table vAddr = some (physAddr, node) →
    (node, vAddr) ∈ trace.mem.tlb.queue.nodes
  bounded : trace.mem.tlb.queue.nodes.length ≤ tlbSize
  ordered : Cache.InOrder trace.uses (trace.mem.tlb.queue.nodes.map Prod.snd)
  cached : ∀ vAddr physAddr node, trace.mem.tlb.table vAddr = some (physAddr, node) →
    translation trace.mem vAddr = some physAddr

theorem Kept.lruCoherent {start : RevMem} {trace : Trace} (kept : Kept start trace) :
    LruCoherent start.tlbSize trace where
  keys := by
    intro vAddr
    have member : vAddr ∈ trace.mem.tlb.keys ↔ _ := Cache.mem_keys
    simp only [Cache.lookup, Option.map_eq_some_iff, Prod.exists, exists_and_right,
      exists_eq_right] at member
    exact member.symm
  distinct := trace.mem.tlb.keys_nodup
  linked := trace.mem.tlb.linked
  bounded := by simpa [Cache.keys] using kept.bounded
  ordered := kept.ordered
  cached := fun vAddr physAddr node found => kept.cached vAddr physAddr (by simp [Cache.lookup, found])

-- CalcPhysAddr evicts only what was used before everything else that is cached.
theorem tlb_coherent {start : RevMem} (vacant : start.tlb = Cache.empty)
    (positive : 1 ≤ start.tlbSize) {calls : List Call} (valid : ∀ call ∈ calls, call.Valid start) :
    ∃ trace, run ⟨start, [], []⟩ calls = .ok trace ∧ LruCoherent start.tlbSize trace ∧
      (∀ vAddr, start.isValidVirtAddr vAddr = true → ∃ after,
        (Call.calcPhysAddr vAddr).step trace = .ok after ∧
        ∀ victim ∈ trace.mem.tlb.keys, victim ∉ after.mem.tlb.keys →
          ∀ other ∈ trace.mem.tlb.keys, other ≠ victim →
            trace.uses.idxOf other < trace.uses.idxOf victim) ∧
      ∀ tlbSize, 1 ≤ tlbSize → ∃ other,
        run ⟨{ start with tlbSize := tlbSize }, [], []⟩ calls = .ok other ∧
        other.returned = trace.returned := by
  have fresh : ∀ size, Kept { start with tlbSize := size } ⟨{ start with tlbSize := size }, [], []⟩ :=
    fun size => ⟨rfl, by simp [vacant], by simpa [vacant] using Cache.inOrder_nil [], by simp [vacant]⟩
  have positive : start.tlbSize ≠ 0 := Nat.ne_of_gt positive
  have pair : ∀ size, size ≠ 0 → ∃ trace other, run ⟨start, [], []⟩ calls = .ok trace ∧
      run ⟨{ start with tlbSize := size }, [], []⟩ calls = .ok other ∧ Kept start trace ∧
      Agree trace other := by
    intro size room
    apply run_agree (fresh start.tlbSize) (fresh size) positive room ⟨rfl, rfl, rfl⟩ valid
    intro call member
    have legal := valid call member
    cases call <;> exact legal
  obtain ⟨trace, -, ran, -, kept, -⟩ := pair start.tlbSize positive
  refine ⟨trace, ran, kept.lruCoherent, fun vAddr legal => ?_, fun size room => ?_⟩
  · obtain ⟨after, returns, -, -, -, evicted⟩ := calcPhysAddr_kept kept positive legal
    exact ⟨_, step_calcPhysAddr returns, evicted⟩
  · obtain ⟨again, other, ranAgain, ranOther, -, agree⟩ := pair size (Nat.ne_of_gt room)
    rw [ran] at ranAgain
    cases ranAgain
    exact ⟨other, ranOther, agree.returned.symm⟩

def twoEntries : List Call :=
  [.calcPhysAddr 1310720, .calcPhysAddr 1310721, .searchTLB 1310720, .calcPhysAddr 1572864,
    .calcPhysAddr 1310721, .flushTLB, .calcPhysAddr 1310720]

-- The third address evicts the second, which is translated to the same cell again.
theorem tlb_coherent_two_entries :
    ∃ trace, run ⟨RevMem.new 2097152 2 1 0, [], []⟩ twoEntries = .ok trace ∧
      LruCoherent 2 trace := by
  have vacant : (RevMem.new 2097152 2 1 0).tlb = Cache.empty := rfl
  have valid : ∀ call ∈ twoEntries, call.Valid (RevMem.new 2097152 2 1 0) := by
    have stack := fun vAddr => (valid_stack_only 2 vAddr).mpr
    simp [twoEntries, Call.Valid, stack]
  obtain ⟨trace, ran, coherent, -⟩ := tlb_coherent vacant (by decide) valid
  exact ⟨trace, ran, coherent⟩

end RevCPU.Tlb
