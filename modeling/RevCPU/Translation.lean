import RevCPU.Tlb
/-!
Runs of address translations. Frames are numbered in the order of first touch, by a counter that nothing
compares with the size of physical memory, and shifted in 32 bits. A run is any sequence of CalcPhysAddr
calls as LRBase, AMOMem, WriteMem and ReadMem make them, of what they look up in the page map, of flushes,
and of everything else that leaves the page map, the TLB and the sizes alone.
-/
namespace RevCPU.Translation
open Mem LruCache MemRefine FirstTouch

/-- The addresses translated so far, each with the physical address it got. -/
structure Trace where
  mem : RevMem
  returned : List (Nat × Nat)

/-- Everything that a translation reads or writes, apart from what makes an address valid. -/
structure Aside (mem after : RevMem) : Prop where
  memSize : after.memSize = mem.memSize
  tlbSize : after.tlbSize = mem.tlbSize
  tlb : after.tlb = mem.tlb
  pageMap : after.pageMap = mem.pageMap
  nextPage : after.nextPage = mem.nextPage

/-- The runs whose translations meet a condition on the memory before, the page number and the address. -/
inductive Reached (good : RevMem → Nat → Nat → Prop) : Trace → Prop
  | start (memSize tlbSize heapstart heapend : Nat) :
    Reached good ⟨RevMem.new memSize tlbSize heapstart heapend, []⟩
  -- The page number of the second part of an access is a uint32_t.
  | translate {trace : Trace} {page physAddr : Nat} {after : RevMem} (vAddr : Nat)
      (before : Reached good trace)
      (named : page = vAddr >>> addrShift ∨ page = (vAddr >>> addrShift) % 2 ^ 32)
      (meets : good trace.mem page vAddr)
      (called : trace.mem.calcPhysAddr page vAddr = .ok (physAddr, after)) :
    Reached good ⟨after, trace.returned ++ [(vAddr, physAddr)]⟩
  -- `pageMap[pageNum].first` of an address that was translated.
  | frameOf {trace : Trace} {vAddr physAddr : Nat} (before : Reached good trace)
      (seen : (vAddr, physAddr) ∈ trace.returned) :
    Reached good ⟨(trace.mem.frameOf (vAddr >>> addrShift)).2, trace.returned⟩
  | flushTLB {trace : Trace} (before : Reached good trace) : Reached good ⟨trace.mem.flushTLB, trace.returned⟩
  | other {trace : Trace} {after : RevMem} (before : Reached good trace) (aside : Aside trace.mem after) :
    Reached good ⟨after, trace.returned⟩

/-- A translation that misses the TLB has its whole page number, and finds a frame: its page was touched
before, or fewer pages were touched than fit the memory and 14 bits. -/
def Roomy (mem : RevMem) (page vAddr : Nat) : Prop :=
  mem.tlb.lookup vAddr = none → page = vAddr / pageSize ∧
    (mem.pageMap page = none → mem.nextPage < 2 ^ 14 ∧ mem.nextPage < mem.memSize / pageSize)

/-- What an address got is the cell behind it, which is there. -/
def Behind (mem : RevMem) (vAddr physAddr : Nat) : Prop :=
  place mem.pageMap pageSize vAddr = some physAddr ∧ physAddr < mem.memSize

structure Placed (trace : Trace) : Prop where
  exact : Exact trace.mem.pageMap trace.mem.nextPage
  few : trace.mem.nextPage ≤ 2 ^ 14
  fits : trace.mem.nextPage ≤ trace.mem.memSize / pageSize
  cached : ∀ vAddr physAddr, trace.mem.tlb.lookup vAddr = some physAddr → Behind trace.mem vAddr physAddr
  returned : ∀ vAddr physAddr, (vAddr, physAddr) ∈ trace.returned → Behind trace.mem vAddr physAddr

section Steps
variable {trace : Trace} {page vAddr physAddr : Nat} {after : RevMem} (placed : Placed trace)
include placed

theorem Placed.frame_lt {frame : Nat} (owner : trace.mem.pageMap page = some frame) : frame < 2 ^ 14 :=
  Nat.lt_of_lt_of_le (placed.exact.below page frame owner) placed.few

theorem Placed.frame_fits {frame : Nat} (owner : trace.mem.pageMap page = some frame) (vAddr : Nat) :
    frame * pageSize + vAddr % pageSize < trace.mem.memSize := by
  have below := Nat.lt_of_lt_of_le (placed.exact.below page frame owner) placed.fits
  have whole : (frame + 1) * pageSize ≤ trace.mem.memSize :=
    (Nat.le_div_iff_mul_le pageSize_pos).mp below
  have offset := Nat.mod_lt vAddr pageSize_pos
  rw [Nat.add_mul, Nat.one_mul] at whole
  omega

omit placed in
theorem pageBase_small {frame : Nat} (few : frame < 2 ^ 14) : RevMem.pageBase frame = frame * pageSize := by
  simp only [RevMem.pageBase, addrShift, pageSize, Nat.shiftLeft_eq]
  omega

theorem Placed.cached_ne (hit : trace.mem.tlb.lookup vAddr = some physAddr) : physAddr ≠ invalidAddr := by
  have ⟨frame, owner, cell⟩ := Option.map_eq_some_iff.mp (placed.cached vAddr physAddr hit).1
  have few := placed.frame_lt owner
  simp only [pageSize, invalidAddr] at cell ⊢
  omega

omit placed in
theorem Behind.aside {mem : RevMem} (behind : Behind mem vAddr physAddr) (aside : Aside mem after) :
    Behind after vAddr physAddr := by
  rw [Behind, aside.pageMap, aside.memSize]
  exact behind

-- A change of the TLB that keeps to cells that are behind.
theorem Placed.retlb {returned : List (Nat × Nat)} (memSize : after.memSize = trace.mem.memSize)
    (pageMap : after.pageMap = trace.mem.pageMap) (nextPage : after.nextPage = trace.mem.nextPage)
    (cached : ∀ vAddr physAddr, after.tlb.lookup vAddr = some physAddr → Behind trace.mem vAddr physAddr)
    (same : ∀ vAddr physAddr, (vAddr, physAddr) ∈ returned → Behind trace.mem vAddr physAddr) :
    Placed ⟨after, returned⟩ := by
  have still : ∀ {vAddr physAddr}, Behind trace.mem vAddr physAddr → Behind after vAddr physAddr := by
    intro vAddr physAddr behind
    rw [Behind, pageMap, memSize]
    exact behind
  constructor
  · rw [pageMap, nextPage]
    exact placed.exact
  · rw [nextPage]
    exact placed.few
  · rw [nextPage, memSize]
    exact placed.fits
  · exact fun vAddr physAddr hit => still (cached vAddr physAddr hit)
  · exact fun vAddr physAddr member => still (same vAddr physAddr member)

theorem Placed.searchTLB (vAddr : Nat) : Placed ⟨(trace.mem.searchTLB vAddr).2, trace.returned⟩ := by
  have ⟨pageMap, nextPage, same⟩ := Tlb.searchTLB_pages trace.mem vAddr
  refine placed.retlb (layout_fields same).1 pageMap nextPage ?_ placed.returned
  intro other cell hit
  rw [Tlb.searchTLB_tlb, Cache.lookup_search] at hit
  exact placed.cached other cell hit

/-- The frame of a page, or the next one, and what is behind its addresses then. -/
theorem Placed.touchPage (room : trace.mem.pageMap page = none →
      trace.mem.nextPage < 2 ^ 14 ∧ trace.mem.nextPage < trace.mem.memSize / pageSize) :
    Placed ⟨(trace.mem.touchPage page).2, trace.returned⟩ ∧
      (trace.mem.touchPage page).2.pageMap page = some (trace.mem.touchPage page).1 ∧
      (trace.mem.touchPage page).2.memSize = trace.mem.memSize := by
  unfold RevMem.touchPage
  cases owner : trace.mem.pageMap page with
  | none =>
    have ⟨few, fits⟩ := room owner
    have noWrap : (trace.mem.nextPage + 1) % 2 ^ 32 = trace.mem.nextPage + 1 := by omega
    dsimp only
    rw [noWrap]
    refine ⟨⟨placed.exact.assign owner, few, fits, ?_, ?_⟩, Function.update_self _ _ _, rfl⟩
    · intro vAddr physAddr hit
      have ⟨behind, inside⟩ := placed.cached vAddr physAddr hit
      exact ⟨place_assign owner behind, inside⟩
    · intro vAddr physAddr member
      have ⟨behind, inside⟩ := placed.returned vAddr physAddr member
      exact ⟨place_assign owner behind, inside⟩
  | some frame => exact ⟨placed, owner, rfl⟩

theorem Placed.calcPhysAddr (roomy : Roomy trace.mem page vAddr)
    (called : trace.mem.calcPhysAddr page vAddr = .ok (physAddr, after)) :
    Placed ⟨after, trace.returned ++ [(vAddr, physAddr)]⟩ := by
  have push : ∀ {mem : RevMem}, Placed ⟨mem, trace.returned⟩ → Behind mem vAddr physAddr →
      Placed ⟨mem, trace.returned ++ [(vAddr, physAddr)]⟩ := by
    intro mem before behind
    refine ⟨before.exact, before.few, before.fits, before.cached, fun other cell member => ?_⟩
    rcases List.mem_append.mp member with old | last
    · exact before.returned other cell old
    · cases List.mem_singleton.mp last
      exact behind
  have searched := placed.searchTLB vAddr
  have ⟨pageMap, nextPage, same⟩ := Tlb.searchTLB_pages trace.mem vAddr
  have memSize := (layout_fields same).1
  cases found : trace.mem.tlb.lookup vAddr with
  | some cell =>
    rw [Tlb.calcPhysAddr_cached page found (placed.cached_ne found)] at called
    cases called
    apply push searched
    rw [Behind, pageMap, memSize]
    exact placed.cached vAddr _ found
  | none =>
    have ⟨_, result, added⟩ := Tlb.calcPhysAddr_missed found called
    have ⟨whole, room⟩ := roomy found
    subst whole
    generalize (trace.mem.searchTLB vAddr).2 = mem at searched pageMap nextPage memSize result added
    rw [← pageMap, ← nextPage, ← memSize] at room
    have ⟨touched, owner, size⟩ := Placed.touchPage searched room
    dsimp only at touched owner size
    rw [pageBase_small (touched.frame_lt owner)] at result
    have behind : Behind (mem.touchPage (vAddr / pageSize)).2 vAddr physAddr := by
      rw [Behind, result, place_mapped owner]
      exact ⟨rfl, touched.frame_fits owner vAddr⟩
    rw [RevMem.addToTLB] at added
    split at added
    · cases added
    · rename_i tlb grown
      cases added
      refine push (touched.retlb rfl rfl rfl ?_ touched.returned) behind
      intro other bound hit
      rcases Cache.lookup_add grown other hit with ⟨here, value⟩ | old
      · rw [here, value]
        exact behind
      · exact touched.cached other bound old

end Steps

/-- Every run whose first translations find a frame keeps its addresses at the cells behind them. -/
theorem reached_placed {trace : Trace} (reached : Reached Roomy trace) : Placed trace := by
  induction reached with
  | start memSize tlbSize heapstart heapend =>
    refine ⟨exact_empty, Nat.zero_le _, Nat.zero_le _, ?_, ?_⟩
    · intro vAddr physAddr hit
      cases hit
    · intro vAddr physAddr member
      cases member
  | translate vAddr before named meets called placed => exact placed.calcPhysAddr meets called
  | @frameOf trace vAddr physAddr before seen placed =>
    have ⟨frame, owner, _⟩ := Option.map_eq_some_iff.mp (placed.returned vAddr physAddr seen).1
    have same : (trace.mem.frameOf (vAddr >>> addrShift)).2 = trace.mem := by
      rw [RevMem.frameOf, page_shift, owner]
    rw [same]
    exact placed
  | flushTLB before placed =>
    refine placed.retlb rfl rfl rfl ?_ placed.returned
    intro vAddr physAddr hit
    cases hit
  | other before aside placed =>
    refine placed.retlb aside.memSize aside.pageMap aside.nextPage ?_ placed.returned
    rw [aside.tlb]
    exact placed.cached

/-- Such a run translates into physical memory, and addresses of different pages to different places. -/
theorem translations_inside_injective {trace : Trace} (reached : Reached Roomy trace) :
    (∀ vAddr physAddr, (vAddr, physAddr) ∈ trace.returned → physAddr < trace.mem.memSize) ∧
      ∀ first second physAddr, (first, physAddr) ∈ trace.returned → (second, physAddr) ∈ trace.returned →
        first / pageSize = second / pageSize := by
  have placed := reached_placed reached
  constructor
  · exact fun vAddr physAddr member => (placed.returned vAddr physAddr member).2
  · intro first second physAddr one two
    have same := place_injective placed.exact pageSize_pos (placed.returned first physAddr one).1
      (placed.returned second physAddr two).1
    rw [same]

-- Two pages of the stack, the second one touched first.
theorem translations_inside_injective_two :
    ∃ trace, Reached Roomy trace ∧ trace.returned = [(1310720, 0), (1048576, 262144)] ∧
      ∀ vAddr physAddr, (vAddr, physAddr) ∈ trace.returned → physAddr < trace.mem.memSize := by
  have ⟨middle, last, one, two, memSize, nextPage⟩ : ∃ middle last,
      (RevMem.new 2097152 16 1 0).calcPhysAddr (1310720 >>> addrShift) 1310720 = .ok (0, middle) ∧
      middle.calcPhysAddr (1048576 >>> addrShift) 1048576 = .ok (262144, last) ∧
      middle.memSize = 2097152 ∧ middle.nextPage = 1 := ⟨_, _, rfl, rfl, rfl, rfl⟩
  have empty : Roomy (RevMem.new 2097152 16 1 0) (1310720 >>> addrShift) 1310720 := by
    intro _
    have first : (RevMem.new 2097152 16 1 0).nextPage = 0 := rfl
    have size : (RevMem.new 2097152 16 1 0).memSize = 2097152 := rfl
    rw [first, size]
    exact ⟨page_shift _, fun _ => by decide⟩
  have first : Reached Roomy ⟨middle, [(1310720, 0)]⟩ :=
    .translate 1310720 (.start 2097152 16 1 0) (.inl rfl) empty one
  have roomy : Roomy middle (1048576 >>> addrShift) 1048576 := by
    intro _
    rw [nextPage, memSize]
    exact ⟨page_shift _, fun _ => by decide⟩
  have second : Reached Roomy ⟨last, [(1310720, 0), (1048576, 262144)]⟩ :=
    .translate 1048576 first (.inl rfl) roomy two
  exact ⟨_, second, rfl, (translations_inside_injective second).1⟩

section Sweep

/-- A memory with one segment, which may be larger. -/
def wide (memSize segSize : Nat) : RevMem := (RevMem.new memSize 16 1 0).addMemSegAt 0 segSize

variable {memSize segSize vAddr : Nat} (fits : segSize < 2 ^ 64)
include fits

theorem wide_valid (inside : vAddr < segSize) : (wide memSize segSize).isValidVirtAddr vAddr = true := by
  have held : (MemSegment.make 0 segSize).contains vAddr = true := by
    rw [MemSegment.contains, MemSegment.make, Nat.zero_add, Nat.mod_eq_of_lt fits]
    simp [inside]
  have segment : (wide memSize segSize).memSegs.any (fun seg => seg.contains vAddr) = true :=
    List.any_eq_true.mpr ⟨_, List.mem_cons_self, held⟩
  rw [RevMem.isValidVirtAddr, if_pos segment]

/-- The first pages of a memory were touched in order, each at its first address. -/
structure Swept (memSize segSize count : Nat) (trace : Trace) : Prop where
  layout : layout trace.mem = layout (wide memSize segSize)
  nextPage : trace.mem.nextPage = count
  fresh : ∀ page, count ≤ page → trace.mem.pageMap page = none
  keys : ∀ vAddr ∈ trace.mem.tlb.keys, vAddr < count * pageSize
  returned : ∀ page < count, (page * pageSize, RevMem.pageBase page) ∈ trace.returned

theorem swept {count : Nat} (small : count * pageSize ≤ segSize) (few : count < 2 ^ 32) :
    ∃ trace, Reached (fun _ _ _ => True) trace ∧ Swept memSize segSize count trace := by
  induction count with
  | zero =>
    refine ⟨⟨wide memSize segSize, []⟩, (Reached.start memSize 16 1 0).other ⟨rfl, rfl, rfl, rfl, rfl⟩,
      rfl, rfl, ?_, ?_, ?_⟩
    · exact fun _ _ => rfl
    · exact fun vAddr member => absurd member (by simp [wide, RevMem.addMemSegAt, RevMem.new])
    · exact fun page below => absurd below (Nat.not_lt_zero page)
  | succ count ih =>
    obtain ⟨trace, reached, sweep⟩ := ih (Nat.le_trans (Nat.mul_le_mul_right _ (Nat.le_succ count)) small)
      (Nat.lt_of_succ_lt few)
    have miss : trace.mem.tlb.lookup (count * pageSize) = none := by
      apply Cache.not_mem_keys.mp
      exact fun member => absurd (sweep.keys _ member) (Nat.lt_irrefl _)
    have valid : trace.mem.isValidVirtAddr (count * pageSize) = true := by
      rw [isValidVirtAddr_layout sweep.layout]
      apply wide_valid fits
      rw [Nat.add_mul] at small
      rw [Nat.one_mul] at small
      exact Nat.lt_of_lt_of_le (Nat.lt_add_of_pos_right pageSize_pos) small
    have positive : trace.mem.tlbSize ≠ 0 := by
      rw [(layout_fields sweep.layout).2]
      exact Nat.succ_ne_zero 15
    have unmapped := sweep.fresh count (Nat.le_refl count)
    have named : (count * pageSize) >>> addrShift = count := by
      rw [page_shift, Nat.mul_div_cancel _ pageSize_pos]
    obtain ⟨after, called, added, same, pageMap, nextPage⟩ := Tlb.calcPhysAddr_first positive valid miss
    have touched : Tlb.touched trace.mem (count * pageSize) =
        (RevMem.pageBase count, Function.update trace.mem.pageMap count (some count), count + 1) := by
      rw [Tlb.touched, named, RevMem.touchPage, unmapped]
      dsimp only
      rw [page_offset, Nat.mul_mod_left, Nat.add_zero, sweep.nextPage, Nat.mod_eq_of_lt few]
    rw [touched] at called added pageMap nextPage
    dsimp only at called added pageMap nextPage
    refine ⟨_, reached.translate (count * pageSize) (.inl rfl) trivial called,
      same.trans sweep.layout, nextPage, ?_, ?_, ?_⟩
    · intro page above
      rw [pageMap, Function.update_of_ne (by omega)]
      exact sweep.fresh page (by omega)
    · intro vAddr member
      obtain ⟨cell, hit⟩ := Cache.mem_keys.mp member
      have next : count * pageSize < (count + 1) * pageSize :=
        Nat.mul_lt_mul_of_pos_right (Nat.lt_succ_self count) pageSize_pos
      rcases Cache.lookup_add added vAddr hit with ⟨same, _⟩ | old
      · rw [same]
        exact next
      · exact Nat.lt_trans (sweep.keys vAddr (Cache.mem_keys.mpr ⟨cell, old⟩)) next
    · intro page below
      rcases Nat.lt_succ_iff_lt_or_eq.mp below with old | last
      · exact List.mem_append_left _ (sweep.returned page old)
      · rw [last]
        exact List.mem_append_right _ List.mem_cons_self

end Sweep

-- The third page of a memory of two pages, and a page 2^32 behind another one in a memory of 8 GiB.
theorem translations_escape_collide :
    (∃ trace, Reached (fun _ _ _ => True) trace ∧ trace.mem.isValidVirtAddr 524288 = true ∧
      (524288, 524288) ∈ trace.returned ∧ ¬ 524288 < trace.mem.memSize) ∧
      ∃ trace, Reached (fun _ _ _ => True) trace ∧ (0, 0) ∈ trace.returned ∧
        (2 ^ 32, 0) ∈ trace.returned ∧ 0 / pageSize ≠ 2 ^ 32 / pageSize := by
  constructor
  · have ⟨trace, reached, sweep⟩ :
        ∃ trace, Reached (fun _ _ _ => True) trace ∧ Swept 524288 786432 3 trace :=
      swept (by decide) (by decide) (by decide)
    refine ⟨trace, reached, ?_, sweep.returned 2 (by decide), ?_⟩
    · rw [isValidVirtAddr_layout sweep.layout]
      exact wide_valid (by decide) (by decide)
    · rw [(layout_fields sweep.layout).1]
      exact Nat.lt_irrefl _
  · have ⟨trace, reached, sweep⟩ :
        ∃ trace, Reached (fun _ _ _ => True) trace ∧ Swept (2 ^ 33) (2 ^ 33) (2 ^ 14 + 1) trace :=
      swept (by decide) (by decide) (by decide)
    exact ⟨trace, reached, sweep.returned 0 (by decide), sweep.returned (2 ^ 14) (by decide), by decide⟩

end RevCPU.Translation
