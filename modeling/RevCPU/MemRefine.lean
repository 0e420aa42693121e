import RevCPU.Mem
namespace RevCPU.MemRefine
open Mem LruCache FirstTouch
/-! RevMem against a flat byte array. The page map hands out frames in counting order, so it stays
injective and inside physical memory; the TLB only repeats what the page map says; and the split of
a page-crossing access covers its range once. -/
variable {mem after : RevMem} {vAddr : Nat}

/-- The byte behind a virtual address, read off the page map and physical memory. -/
def byteAt (mem : RevMem) (vAddr : Nat) : Byte := view mem.pageMap pageSize mem.physMem 0 vAddr

def layout (mem : RevMem) : Nat × Nat × List MemSegment × Nat × Nat × Nat :=
  (mem.memSize, mem.tlbSize, mem.memSegs, mem.heapend, mem.heapstart, mem.stacktop)

/-- What the sizes of a memory are assumed to satisfy. -/
structure Sized (mem : RevMem) : Prop where
  aligned : mem.memSize % pageSize = 0
  small : mem.memSize < 2 ^ 32
  bounded : ∀ vAddr, mem.isValidVirtAddr vAddr = true → vAddr < mem.memSize

structure Coherent (mem : RevMem) : Prop where
  exact : Exact mem.pageMap mem.nextPage
  pages : ∀ page frame, mem.pageMap page = some frame → page < mem.memSize / pageSize
  blank : ∀ index, mem.nextPage * pageSize ≤ index → mem.physMem index = 0
  cached : ∀ vAddr physAddr, mem.tlb.lookup vAddr = some physAddr →
    place mem.pageMap pageSize vAddr = some physAddr

-- No page has been touched: the memory as the loader finds it.
structure Untouched (mem : RevMem) : Prop where
  noPage : mem.pageMap = fun _ => none
  noFrame : mem.nextPage = 0
  noEntry : mem.tlb = Cache.empty
  zeroed : mem.physMem = fun _ => 0

theorem pageSize_pos : 0 < pageSize := by decide

theorem Untouched.coherent (untouched : Untouched mem) : Coherent mem where
  exact := by rw [untouched.noPage, untouched.noFrame]; exact exact_empty
  pages := by simp [untouched.noPage]
  blank := by simp [untouched.zeroed]
  cached := by simp [untouched.noEntry]

theorem Untouched.byteAt (untouched : Untouched mem) (vAddr : Nat) : byteAt mem vAddr = 0 := by
  simp [MemRefine.byteAt, view, place, untouched.noPage]

theorem layout_fields (same : layout after = layout mem) :
    after.memSize = mem.memSize ∧ after.tlbSize = mem.tlbSize := by
  simp only [layout, Prod.mk.injEq] at same
  exact ⟨same.1, same.2.1⟩

theorem isValidVirtAddr_layout (same : layout after = layout mem) (vAddr : Nat) :
    after.isValidVirtAddr vAddr = mem.isValidVirtAddr vAddr := by
  simp only [layout, Prod.mk.injEq] at same
  simp only [RevMem.isValidVirtAddr, same]

theorem Sized.of_layout (sized : Sized mem) (same : layout after = layout mem) : Sized after where
  aligned := by rw [(layout_fields same).1]; exact sized.aligned
  small := by rw [(layout_fields same).1]; exact sized.small
  bounded := by
    intro vAddr valid
    rw [(layout_fields same).1]
    rw [isValidVirtAddr_layout same] at valid
    exact sized.bounded vAddr valid

section Frames

-- Every frame handed out fits into physical memory.
theorem frames_fit (coherent : Coherent mem) :
    mem.nextPage * pageSize ≤ mem.memSize := by
  have count := coherent.exact.next_le_card (Finset.range (mem.memSize / pageSize))
    (fun page frame owner => Finset.mem_range.mpr (coherent.pages page frame owner))
  rw [Finset.card_range] at count
  calc mem.nextPage * pageSize ≤ mem.memSize / pageSize * pageSize := Nat.mul_le_mul_right _ count
    _ ≤ mem.memSize := Nat.div_mul_le_self ..

theorem place_lt_memSize (coherent : Coherent mem) {index : Nat}
    (behind : place mem.pageMap pageSize vAddr = some index) : index < mem.memSize :=
  Nat.lt_of_lt_of_le (place_lt coherent.exact pageSize_pos behind) (frames_fit coherent)

theorem fresh_frame_fits (coherent : Coherent mem) {page : Nat} (fresh : mem.pageMap page = none)
    (inside : page < mem.memSize / pageSize) : (mem.nextPage + 1) * pageSize ≤ mem.memSize := by
  have count := coherent.exact.next_lt_card fresh (Finset.range (mem.memSize / pageSize))
    (Finset.mem_range.mpr inside)
    (fun other frame owner => Finset.mem_range.mpr (coherent.pages other frame owner))
  rw [Finset.card_range] at count
  calc (mem.nextPage + 1) * pageSize ≤ mem.memSize / pageSize * pageSize :=
        Nat.mul_le_mul_right _ count
    _ ≤ mem.memSize := Nat.div_mul_le_self ..

theorem pageBase_eq {frame : Nat} (fits : (frame + 1) * pageSize ≤ mem.memSize)
    (sized : Sized mem) : RevMem.pageBase frame = frame * pageSize := by
  have small := sized.small
  simp only [pageSize] at fits
  simp only [RevMem.pageBase, addrShift, pageSize, Nat.shiftLeft_eq]
  omega

theorem page_shift (vAddr : Nat) : vAddr >>> addrShift = vAddr / pageSize := by
  simp [addrShift, pageSize, Nat.shiftRight_eq_div_pow]

theorem page_offset (vAddr : Nat) : (pageSize - 1) &&& vAddr = vAddr % pageSize := by
  rw [Nat.and_comm]
  exact Nat.and_two_pow_sub_one_eq_mod vAddr 18

theorem page_inside (sized : Sized mem) (valid : mem.isValidVirtAddr vAddr = true) :
    vAddr / pageSize < mem.memSize / pageSize := by
  have bound := sized.bounded vAddr valid
  have aligned := sized.aligned
  simp only [pageSize] at *
  omega

end Frames

/-- What a translation may do: hand out a frame and cache addresses, none of which can be seen. -/
structure Unseen (mem after : RevMem) : Prop where
  coherent : Coherent after
  layout : layout after = layout mem
  kept : ∀ page frame, mem.pageMap page = some frame → after.pageMap page = some frame
  view : ∀ vAddr, byteAt after vAddr = byteAt mem vAddr

theorem Unseen.trans {last : RevMem} (one : Unseen mem after) (two : Unseen after last) :
    Unseen mem last where
  coherent := two.coherent
  layout := two.layout.trans one.layout
  kept := fun page frame owner => two.kept page frame (one.kept page frame owner)
  view := fun vAddr => (two.view vAddr).trans (one.view vAddr)

theorem Unseen.place (unseen : Unseen mem after) {index : Nat}
    (behind : place mem.pageMap pageSize vAddr = some index) :
    place after.pageMap pageSize vAddr = some index := by
  obtain ⟨frame, owner, rfl⟩ := Option.map_eq_some_iff.mp behind
  exact place_mapped (unseen.kept _ frame owner)

-- A change of the TLB, the statistics or the futures, with every cached entry backed by the page map.
theorem Unseen.of_pageMap (coherent : Coherent mem)
    (layoutSame : MemRefine.layout after = MemRefine.layout mem) (pageMap : after.pageMap = mem.pageMap)
    (nextPage : after.nextPage = mem.nextPage) (physMem : after.physMem = mem.physMem)
    (cached : ∀ vAddr physAddr, after.tlb.lookup vAddr = some physAddr →
      FirstTouch.place mem.pageMap pageSize vAddr = some physAddr) : Unseen mem after where
  coherent :=
    { exact := by rw [pageMap, nextPage]; exact coherent.exact
      pages := by rw [pageMap, (layout_fields layoutSame).1]; exact coherent.pages
      blank := by rw [nextPage, physMem]; exact coherent.blank
      cached := by rw [pageMap]; exact cached }
  layout := layoutSame
  kept := by rw [pageMap]; exact fun _ _ owner => owner
  view := by simp [byteAt, pageMap, physMem]

theorem revokeFuture_unseen (coherent : Coherent mem) (addr : Nat) :
    Unseen mem (mem.revokeFuture addr).2 :=
  .of_pageMap coherent rfl rfl rfl rfl coherent.cached

theorem searchTLB_unseen (coherent : Coherent mem) (vAddr : Nat) :
    Unseen mem (mem.searchTLB vAddr).2 := by
  have lookups := mem.tlb.lookup_search vAddr
  unfold RevMem.searchTLB
  split
  · exact .of_pageMap coherent rfl rfl rfl rfl coherent.cached
  · rename_i physAddr tlb found
    rw [found] at lookups
    refine .of_pageMap coherent rfl rfl rfl rfl fun other bound hit => ?_
    exact coherent.cached other bound ((lookups other).symm.trans hit)

theorem searchTLB_result (mem : RevMem) (vAddr : Nat) :
    (mem.searchTLB vAddr).1 = (mem.tlb.lookup vAddr).getD invalidAddr := by
  have result := mem.tlb.search_result vAddr
  unfold RevMem.searchTLB
  split <;> rename_i found <;> simp [← result, found]

theorem assign_unseen (coherent : Coherent mem) {page : Nat} (fresh : mem.pageMap page = none)
    (inside : page < mem.memSize / pageSize) :
    Unseen mem { mem with
      pageMap := Function.update mem.pageMap page (some mem.nextPage)
      nextPage := mem.nextPage + 1 } := by
  have kept : ∀ other frame, mem.pageMap other = some frame →
      Function.update mem.pageMap page (some mem.nextPage) other = some frame := by
    intro other frame owner
    have differs : other ≠ page := fun same => by simp [same, fresh] at owner
    rw [Function.update_of_ne differs, owner]
  refine ⟨⟨coherent.exact.assign fresh, ?_, ?_, ?_⟩, rfl, kept, ?_⟩
  · intro other frame owner
    by_cases same : other = page
    · exact same ▸ inside
    · dsimp only at owner
      rw [Function.update_of_ne same] at owner
      exact coherent.pages other frame owner
  · intro index above
    refine coherent.blank index (Nat.le_trans (Nat.mul_le_mul_right _ ?_) above)
    exact Nat.le_succ mem.nextPage
  · intro vAddr physAddr hit
    obtain ⟨frame, owner, rfl⟩ := Option.map_eq_some_iff.mp (coherent.cached vAddr physAddr hit)
    exact place_mapped (kept _ frame owner)
  · exact fun vAddr => view_assign fresh coherent.blank vAddr

theorem touchPage_unseen (sized : Sized mem) (coherent : Coherent mem) {page : Nat}
    (inside : page < mem.memSize / pageSize) :
    Unseen mem (mem.touchPage page).2 ∧
      (mem.touchPage page).2.pageMap page = some (mem.touchPage page).1 := by
  unfold RevMem.touchPage
  split
  · rename_i fresh
    have noWrap : (mem.nextPage + 1) % 2 ^ 32 = mem.nextPage + 1 := by
      have fits := fresh_frame_fits coherent fresh inside
      have small := sized.small
      simp only [pageSize] at fits
      omega
    dsimp only
    rw [noWrap]
    exact ⟨assign_unseen coherent fresh inside, Function.update_self ..⟩
  · rename_i frame owner
    exact ⟨.of_pageMap coherent rfl rfl rfl rfl coherent.cached, owner⟩

theorem frame_fits (coherent : Coherent mem) {page frame : Nat}
    (owner : mem.pageMap page = some frame) : (frame + 1) * pageSize ≤ mem.memSize :=
  Nat.le_trans (Nat.mul_le_mul_right _ (coherent.exact.below page frame owner))
    (frames_fit coherent)

theorem addToTLB_unseen (coherent : Coherent mem) (positive : mem.tlbSize ≠ 0) {physAddr : Nat}
    (behind : FirstTouch.place mem.pageMap pageSize vAddr = some physAddr) :
    ∃ after, mem.addToTLB vAddr physAddr = .ok after ∧ Unseen mem after := by
  obtain ⟨tlb, added⟩ := mem.tlb.add_succeeds positive vAddr physAddr
  refine ⟨{ mem with tlb := tlb }, by simp [RevMem.addToTLB, added], ?_⟩
  refine .of_pageMap coherent rfl rfl rfl rfl fun other bound hit => ?_
  rcases Cache.lookup_add added other hit with ⟨rfl, rfl⟩ | old
  · exact behind
  · exact coherent.cached other bound old

-- Hit or miss, a translation ends at the cell the page map gives.
theorem calcPhysAddr_valid (sized : Sized mem) (coherent : Coherent mem)
    (positive : mem.tlbSize ≠ 0) (valid : mem.isValidVirtAddr vAddr = true) :
    ∃ physAddr after, mem.calcPhysAddr (vAddr / pageSize) vAddr = .ok (physAddr, after) ∧
      Unseen mem after ∧ place after.pageMap pageSize vAddr = some physAddr := by
  have searched := searchTLB_unseen coherent vAddr
  have result := searchTLB_result mem vAddr
  generalize outcome : mem.searchTLB vAddr = found at searched result
  obtain ⟨cached, first⟩ := found
  by_cases miss : cached = invalidAddr
  · have firstValid : first.isValidVirtAddr vAddr = true := by
      rw [isValidVirtAddr_layout searched.layout, valid]
    have firstSized := sized.of_layout searched.layout
    obtain ⟨touched, owner⟩ := touchPage_unseen firstSized searched.coherent
      (page_inside firstSized firstValid)
    generalize touch : first.touchPage (vAddr / pageSize) = page at touched owner
    obtain ⟨frame, second⟩ := page
    have secondLayout := touched.layout.trans searched.layout
    have base := pageBase_eq (frame_fits touched.coherent owner) (sized.of_layout secondLayout)
    have tlbSize : second.tlbSize ≠ 0 := by rwa [(layout_fields secondLayout).2]
    obtain ⟨last, added, cachedIt⟩ :=
      addToTLB_unseen touched.coherent tlbSize (place_mapped owner)
    refine ⟨_, last, ?_, (searched.trans touched).trans cachedIt, cachedIt.place (place_mapped owner)⟩
    simp only [RevMem.calcPhysAddr, outcome, miss, firstValid, touch, base, page_offset, added, if_true]
  · have hit : mem.tlb.lookup vAddr = some cached := by
      cases lookup : mem.tlb.lookup vAddr with
      | none => simp [lookup] at result; exact absurd result miss
      | some physAddr => simp [lookup] at result; rw [result]
    refine ⟨cached, first, ?_, searched, searched.place (coherent.cached vAddr cached hit)⟩
    simp only [RevMem.calcPhysAddr, outcome, miss, if_false]

/-- The two runs of an extent are the cells behind consecutive addresses of the range. -/
structure Covers (mem : RevMem) (addr len : Nat) (extent : RevMem.Extent) : Prop where
  total : extent.count + extent.span = len
  first : ∀ step, step < extent.count →
    place mem.pageMap pageSize (addr + step) = some (extent.physAddr + step)
  second : ∀ step, step < extent.span →
    place mem.pageMap pageSize (addr + extent.count + step) = some (extent.adjPhysAddr + step)

/-- The addresses a range is translated at are valid: its first one, and the first one of the next
page if it reaches that page. -/
structure Touchable (mem : RevMem) (addr len : Nat) : Prop where
  first : mem.isValidVirtAddr addr = true
  next : pageSize < addr % pageSize + len →
    mem.isValidVirtAddr (addr + (pageSize - addr % pageSize)) = true

theorem touchable_of_valid {addr len : Nat} (nonempty : 1 ≤ len)
    (valid : ∀ step, step < len → mem.isValidVirtAddr (addr + step) = true) :
    Touchable mem addr len := by
  refine ⟨valid 0 nonempty, fun crossing => valid _ ?_⟩
  simp only [pageSize] at crossing ⊢
  omega

-- The page of a valid range ends below 2^32, so neither endOfPage nor span is truncated and the
-- second translation starts at the first byte of the next page.
theorem locate_split (sized : Sized mem) (coherent : Coherent mem) (positive : mem.tlbSize ≠ 0)
    {addr len : Nat} (short : len ≤ pageSize) (valid : Touchable mem addr len) :
    ∃ extent after, mem.locate addr len = .ok (extent, after) ∧ Unseen mem after ∧
      Covers after addr len extent ∧ extent.count = min len (pageSize - addr % pageSize) := by
  have start := valid.first
  obtain ⟨physAddr, first, translated, unseen, behind⟩ :=
    calcPhysAddr_valid sized coherent positive start
  obtain ⟨frame, owner, rfl⟩ := Option.map_eq_some_iff.mp behind
  have fits := frame_fits unseen.coherent owner
  have sizedFirst := sized.of_layout unseen.layout
  have base := pageBase_eq fits sizedFirst
  have small := sizedFirst.small
  have memSmall := sized.small
  have inMemory := sized.bounded addr start
  have lookup : first.frameOf (addr / pageSize) = (frame, first) := by
    simp [RevMem.frameOf, owner]
  by_cases crossing : pageSize < addr % pageSize + len
  · have taken : (frame * pageSize + pageSize) % 2 ^ 32 <
        (frame * pageSize + addr % pageSize + len) % 2 ^ 64 := by
      simp only [pageSize] at fits short crossing ⊢; omega
    have spanned : (frame * pageSize + addr % pageSize + len -
        (frame * pageSize + pageSize) % 2 ^ 32) % 2 ^ 32 = addr % pageSize + len - pageSize := by
      simp only [pageSize] at fits short crossing ⊢; omega
    have adjusted : (addr + len + 2 ^ 64 - (addr % pageSize + len - pageSize)) % 2 ^ 64 =
        addr + (pageSize - addr % pageSize) := by
      simp only [pageSize] at fits short crossing ⊢; omega
    have adjPage : (addr + (pageSize - addr % pageSize)) / pageSize % 2 ^ 32 =
        (addr + (pageSize - addr % pageSize)) / pageSize := by
      simp only [pageSize]; omega
    have nextValid : first.isValidVirtAddr (addr + (pageSize - addr % pageSize)) = true := by
      rw [isValidVirtAddr_layout unseen.layout]
      exact valid.next crossing
    obtain ⟨adjPhysAddr, second, adjTranslated, adjUnseen, adjBehind⟩ :=
      calcPhysAddr_valid sizedFirst unseen.coherent
        (by rwa [(layout_fields unseen.layout).2]) nextValid
    have counted : (len + 2 ^ 64 - (addr % pageSize + len - pageSize)) % 2 ^ 64 =
        pageSize - addr % pageSize := by
      simp only [pageSize] at short crossing ⊢; omega
    refine ⟨⟨frame * pageSize + addr % pageSize, pageSize - addr % pageSize, adjPhysAddr,
      addr % pageSize + len - pageSize⟩, second, ?_, unseen.trans adjUnseen, ?_,
      (Nat.min_eq_right (by simp only [pageSize] at crossing ⊢; omega)).symm⟩
    · simp only [RevMem.locate, page_shift, translated, lookup, base, taken, spanned, adjusted, adjPage,
        adjTranslated, counted, if_true]
    · refine ⟨by dsimp only; omega, fun step inside => ?_, fun step inside => ?_⟩
      · exact adjUnseen.place (place_add behind (by dsimp only at inside; omega))
      · refine place_add adjBehind ?_
        simp only [pageSize] at inside short ⊢
        omega
  · have skipped : ¬ (frame * pageSize + pageSize) % 2 ^ 32 <
        (frame * pageSize + addr % pageSize + len) % 2 ^ 64 := by
      simp only [pageSize] at fits short crossing ⊢; omega
    refine ⟨⟨frame * pageSize + addr % pageSize, len, 0, 0⟩, first, ?_, unseen, ?_,
      (Nat.min_eq_left (by simp only [pageSize] at crossing ⊢; omega)).symm⟩
    · simp only [RevMem.locate, page_shift, translated, lookup, base, skipped, if_false]
    · refine ⟨rfl, fun step inside => ?_, fun step inside => absurd inside (Nat.not_lt_zero step)⟩
      exact place_add behind (by dsimp only at inside; omega)

theorem locate_valid (sized : Sized mem) (coherent : Coherent mem) (positive : mem.tlbSize ≠ 0)
    {addr len : Nat} (short : len ≤ pageSize) (valid : Touchable mem addr len) :
    ∃ extent after, mem.locate addr len = .ok (extent, after) ∧ Unseen mem after ∧
      Covers after addr len extent := by
  obtain ⟨extent, after, located, unseen, covers, -⟩ :=
    locate_split sized coherent positive short valid
  exact ⟨extent, after, located, unseen, covers⟩

def flatStore (flat : Nat → Byte) (addr len : Nat) (data : Buffer) : Nat → Byte :=
  fun vAddr => if addr ≤ vAddr ∧ vAddr < addr + len then data (vAddr - addr) else flat vAddr

/-- The target buffer after a load from the flat array. -/
def flatLoad (flat : Nat → Byte) (addr len : Nat) (target : Buffer) : Buffer :=
  fun index => if index < len then flat (addr + index) else target index

/-- A store seen through the unchanged page map. -/
structure Stored (mem after : RevMem) (addr len : Nat) (data : Buffer) : Prop where
  coherent : Coherent after
  layout : layout after = layout mem
  pageMap : after.pageMap = mem.pageMap
  view : ∀ vAddr, byteAt after vAddr = flatStore (byteAt mem) addr len data vAddr

theorem poke_stored (coherent : Coherent mem) {addr index : Nat} (byte : Byte)
    (behind : place mem.pageMap pageSize addr = some index) :
    Stored mem { mem with physMem := Function.update mem.physMem index byte } addr 1
      fun _ => byte where
  coherent := by
    refine ⟨coherent.exact, coherent.pages, fun other above => ?_, coherent.cached⟩
    have inside := place_lt coherent.exact pageSize_pos behind
    have apart : other ≠ index := by
      rintro rfl
      exact absurd inside (Nat.not_lt.mpr above)
    dsimp only
    rw [Function.update_of_ne apart]
    exact coherent.blank other above
  layout := rfl
  pageMap := rfl
  view := by
    intro vAddr
    refine (view_store coherent.exact pageSize_pos behind byte vAddr).trans ?_
    simp only [flatStore, byteAt]
    split_ifs <;> first | rfl | omega

-- One byte per iteration.
theorem copyIn_valid (coherent : Coherent mem) {addr base count : Nat} (cur : Nat) (data : Buffer)
    (behind : ∀ step, step < count → place mem.pageMap pageSize (addr + step) = some (base + step)) :
    ∃ after, mem.copyIn base cur data count = .ok after ∧
      Stored mem after addr count fun index => data (cur + index) := by
  induction count with
  | zero =>
    refine ⟨mem, rfl, coherent, rfl, rfl, fun vAddr => ?_⟩
    rw [flatStore, if_neg (by omega)]
  | succ count ih =>
    obtain ⟨before, copied, stored⟩ := ih fun step inside => behind step (by omega)
    have cell : place before.pageMap pageSize (addr + count) = some (base + count) := by
      rw [stored.pageMap]
      exact behind count (Nat.lt_succ_self count)
    have bound := place_lt_memSize stored.coherent cell
    have poked := poke_stored stored.coherent (data (cur + count)) cell
    refine ⟨_, by simp only [RevMem.copyIn, copied, bound, if_true], poked.coherent,
      poked.layout.trans stored.layout, poked.pageMap.trans stored.pageMap, fun vAddr => ?_⟩
    rw [poked.view]
    simp only [flatStore, stored.view]
    split_ifs <;> first | rfl | omega | (congr 2; omega)

theorem copyOut_valid (coherent : Coherent mem) {addr base count : Nat} (cur : Nat) (target : Buffer)
    (behind : ∀ step, step < count → place mem.pageMap pageSize (addr + step) = some (base + step)) :
    mem.copyOut base cur target count = .ok fun index =>
      if cur ≤ index ∧ index < cur + count then byteAt mem (addr + (index - cur))
      else target index := by
  induction count with
  | zero =>
    simp only [RevMem.copyOut, Except.ok.injEq]
    funext index
    rw [if_neg (by omega)]
  | succ count ih =>
    have cell := behind count (Nat.lt_succ_self count)
    have bound := place_lt_memSize coherent cell
    have byte : mem.physMem (base + count) = byteAt mem (addr + count) :=
      (view_placed cell).symm
    rw [RevMem.copyOut, ih fun step inside => behind step (by omega)]
    simp only [bound, if_true, byte, Except.ok.injEq]
    funext index
    by_cases last : index = cur + count
    · subst last
      rw [Function.update_self, if_pos (by omega)]
      congr 1
      omega
    · rw [Function.update_of_ne last]
      split_ifs <;> first | rfl | omega

section Access
variable {addr len : Nat} (sized : Sized mem) (coherent : Coherent mem)
  (positive : mem.tlbSize ≠ 0) (short : len ≤ pageSize) (valid : Touchable mem addr len)
include sized coherent positive short valid

theorem storeLocal_valid (data : Buffer) :
    ∃ after, mem.storeLocal addr len data = .ok after ∧ Coherent after ∧
      layout after = layout mem ∧
      ∀ vAddr, byteAt after vAddr = flatStore (byteAt mem) addr len data vAddr := by
  have revoked := revokeFuture_unseen coherent addr
  obtain ⟨extent, first, located, unseen, covers⟩ :=
    locate_valid (sized.of_layout revoked.layout) revoked.coherent positive short ⟨valid.first, valid.next⟩
  obtain ⟨second, copied, head⟩ := copyIn_valid unseen.coherent 0 data covers.first
  have covered := covers.second
  rw [← head.pageMap] at covered
  obtain ⟨third, copiedRest, tail⟩ := copyIn_valid head.coherent extent.count data covered
  have counted : Unseen third { third with memStats := { third.memStats with
      bytesWritten := (third.memStats.bytesWritten + len) % 2 ^ 32 } } :=
    .of_pageMap tail.coherent rfl rfl rfl rfl tail.coherent.cached
  refine ⟨_, by simp only [RevMem.storeLocal, located, copied, copiedRest], counted.coherent, ?_,
    fun vAddr => ?_⟩
  · exact tail.layout.trans (head.layout.trans (unseen.layout.trans revoked.layout))
  · have total := covers.total
    rw [counted.view, tail.view]
    simp only [flatStore, head.view, unseen.view, revoked.view]
    split_ifs <;> first | rfl | omega | (congr 1; omega)

theorem readMem_valid (hart : Nat) (target : Buffer) (flags : Nat) :
    ∃ after, mem.readMem hart addr len target flags =
      .ok (⟨flatLoad (byteAt mem) addr len target, false⟩, after) ∧ Unseen mem after := by
  obtain ⟨extent, first, located, unseen, covers⟩ :=
    locate_valid sized coherent positive short valid
  have copied := copyOut_valid unseen.coherent 0 target covers.first
  have copiedRest := fun buffer =>
    copyOut_valid unseen.coherent extent.count buffer covers.second
  have counted : Unseen first { first with memStats := { first.memStats with
      bytesRead := (first.memStats.bytesRead + len) % 2 ^ 32 } } :=
    .of_pageMap unseen.coherent rfl rfl rfl rfl unseen.coherent.cached
  have total := covers.total
  refine ⟨_, ?_, unseen.trans counted⟩
  simp only [RevMem.readMem, located, copied, copiedRest, unseen.view]
  congr 3
  funext index
  simp only [flatLoad]
  split_ifs <;> first | rfl | omega | (congr 1; omega)

end Access

inductive Call where
  | write (hart addr len : Nat) (data : Buffer)
  | writeFlags (hart addr len : Nat) (data : Buffer) (flags : Nat)
  | read (hart addr len : Nat) (target : Buffer) (flags : Nat)

namespace Call

def addr : Call → Nat
  | write _ addr _ _ | writeFlags _ addr _ _ _ | read _ addr _ _ _ => addr

def len : Call → Nat
  | write _ _ len _ | writeFlags _ _ len _ _ | read _ _ len _ _ => len

def isWrite : Call → Bool
  | write .. | writeFlags .. => true
  | read .. => false

/-- Between one byte and a page, on a range of valid addresses only. -/
structure Legal (mem : RevMem) (call : Call) : Prop where
  nonempty : 1 ≤ call.len
  short : call.len ≤ pageSize
  valid : ∀ step, step < call.len → mem.isValidVirtAddr (call.addr + step) = true

def step (mem : RevMem) : Call → Except MemFault (List RevMem.ReadReply × RevMem)
  | write hart addr len data =>
    match mem.writeMem hart addr len data with
    | .error fault => .error fault
    | .ok mem => .ok ([], mem)
  | writeFlags hart addr len data flags =>
    match mem.writeMemFlags hart addr len data flags with
    | .error fault => .error fault
    | .ok mem => .ok ([], mem)
  | read hart addr len target flags =>
    match mem.readMem hart addr len target flags with
    | .error fault => .error fault
    | .ok (reply, mem) => .ok ([reply], mem)

def run (mem : RevMem) : List Call → Except MemFault (List RevMem.ReadReply × RevMem)
  | [] => .ok ([], mem)
  | call :: rest =>
    match step mem call with
    | .error fault => .error fault
    | .ok (reply, mem) =>
      match run mem rest with
      | .error fault => .error fault
      | .ok (replies, mem) => .ok (reply ++ replies, mem)

def flatStep (flat : Nat → Byte) : Call → List RevMem.ReadReply × (Nat → Byte)
  | write _ addr len data | writeFlags _ addr len data _ => ([], flatStore flat addr len data)
  | read _ addr len target _ => ([⟨flatLoad flat addr len target, false⟩], flat)

def flatRun (flat : Nat → Byte) : List Call → List RevMem.ReadReply × (Nat → Byte)
  | [] => ([], flat)
  | call :: rest =>
    let (reply, flat) := flatStep flat call
    let (replies, flat) := flatRun flat rest
    (reply ++ replies, flat)

end Call
open Call

def observe (mem : RevMem) (vAddr : Nat) : Except MemFault Byte :=
  match mem.readMem 0 vAddr 1 (fun _ => 0) 0 with
  | .error fault => .error fault
  | .ok (reply, _) => .ok (reply.target 0)

/-- Every call of the run succeeds, every read replies with the flat array's bytes, and afterwards
every valid address is observed to hold the flat array's byte. -/
def RefinesFlat (mem : RevMem) (calls : List Call) : Prop :=
  ∃ after, run mem calls = .ok ((flatRun (fun _ => 0) calls).1, after) ∧
    ∀ vAddr, mem.isValidVirtAddr vAddr = true →
      observe after vAddr = .ok ((flatRun (fun _ => 0) calls).2 vAddr)

/-- Every write of the run keeps what is observed outside its range. -/
def WritesLocal (mem : RevMem) (calls : List Call) : Prop :=
  ∀ done call rest, calls = done ++ call :: rest → call.isWrite = true →
    ∃ replies before after, run mem done = .ok (replies, before) ∧ step before call = .ok ([], after) ∧
      ∀ vAddr, mem.isValidVirtAddr vAddr = true →
        ¬ (call.addr ≤ vAddr ∧ vAddr < call.addr + call.len) →
        observe after vAddr = observe before vAddr

theorem observe_valid (sized : Sized mem) (coherent : Coherent mem) (positive : mem.tlbSize ≠ 0)
    (valid : mem.isValidVirtAddr vAddr = true) : observe mem vAddr = .ok (byteAt mem vAddr) := by
  have touchable : Touchable mem vAddr 1 :=
    touchable_of_valid (Nat.le_refl 1) fun step inside => by rwa [Nat.lt_one_iff.mp inside]
  obtain ⟨after, replied, -⟩ :=
    readMem_valid sized coherent positive (by decide) touchable 0 (fun _ => 0) 0
  simp only [observe, replied, flatLoad, Nat.zero_lt_one, if_true, Nat.add_zero]

theorem step_refines (sized : Sized mem) (coherent : Coherent mem) (positive : mem.tlbSize ≠ 0)
    {call : Call} (legal : call.Legal mem) :
    ∃ after, call.step mem = .ok ((call.flatStep (byteAt mem)).1, after) ∧ Coherent after ∧
      layout after = layout mem ∧ byteAt after = (call.flatStep (byteAt mem)).2 := by
  obtain ⟨nonempty, short, valid⟩ := legal
  have touchable := touchable_of_valid nonempty valid
  cases call with
  | write hart addr len data =>
    dsimp only [Call.addr, Call.len] at short touchable
    obtain ⟨after, stored, stillCoherent, same, seen⟩ :=
      storeLocal_valid sized coherent positive short touchable data
    exact ⟨after, by simp [step, RevMem.writeMem, stored, flatStep], stillCoherent, same, funext seen⟩
  | writeFlags hart addr len data flags =>
    dsimp only [Call.addr, Call.len] at short touchable
    obtain ⟨after, stored, stillCoherent, same, seen⟩ :=
      storeLocal_valid sized coherent positive short touchable data
    exact ⟨after, by simp [step, RevMem.writeMemFlags, stored, flatStep], stillCoherent, same,
      funext seen⟩
  | read hart addr len target flags =>
    dsimp only [Call.addr, Call.len] at short touchable
    obtain ⟨after, replied, unseen⟩ :=
      readMem_valid sized coherent positive short touchable hart target flags
    exact ⟨after, by simp [step, replied, flatStep], unseen.coherent, unseen.layout,
      funext unseen.view⟩

theorem Call.Legal.of_layout {call : Call} (legal : call.Legal mem) (same : layout after = layout mem) :
    call.Legal after :=
  ⟨legal.nonempty, legal.short, fun step inside => by
    rw [isValidVirtAddr_layout same]; exact legal.valid step inside⟩

theorem run_refines (sized : Sized mem) (coherent : Coherent mem) (positive : mem.tlbSize ≠ 0)
    {calls : List Call} (legal : ∀ call ∈ calls, call.Legal mem) :
    ∃ after, run mem calls = .ok ((flatRun (byteAt mem) calls).1, after) ∧ Coherent after ∧
      layout after = layout mem ∧ byteAt after = (flatRun (byteAt mem) calls).2 := by
  induction calls generalizing mem with
  | nil => exact ⟨mem, rfl, coherent, rfl, rfl⟩
  | cons call rest ih =>
    obtain ⟨next, stepped, nextCoherent, same, seen⟩ :=
      step_refines sized coherent positive (legal call (List.mem_cons_self ..))
    obtain ⟨after, ran, lastCoherent, sameRest, seenRest⟩ := ih (sized.of_layout same) nextCoherent
      (by rwa [(layout_fields same).2])
      (fun other member => (legal other (List.mem_cons_of_mem _ member)).of_layout same)
    rw [seen] at ran seenRest
    exact ⟨after, by simp only [run, stepped, ran, flatRun], lastCoherent, sameRest.trans same, seenRest⟩

theorem flatStep_outside {call : Call} (isWrite : call.isWrite = true) (flat : Nat → Byte)
    (outside : ¬ (call.addr ≤ vAddr ∧ vAddr < call.addr + call.len)) :
    (call.flatStep flat).2 vAddr = flat vAddr := by
  cases call with
  | write | writeFlags =>
    dsimp only [Call.addr, Call.len] at outside
    simp [flatStep, flatStore, outside]
  | read => simp [Call.isWrite] at isWrite

theorem refinesFlat_of_positive (untouched : Untouched mem) (sized : Sized mem)
    (positive : mem.tlbSize ≠ 0) {calls : List Call} (legal : ∀ call ∈ calls, call.Legal mem) :
    RefinesFlat mem calls := by
  obtain ⟨after, ran, coherent, same, seen⟩ :=
    run_refines sized untouched.coherent positive legal
  rw [show byteAt mem = fun _ => 0 from funext untouched.byteAt] at ran seen
  refine ⟨after, ran, fun vAddr valid => ?_⟩
  rw [observe_valid (sized.of_layout same) coherent (by rwa [(layout_fields same).2])
    (by rwa [isValidVirtAddr_layout same]), seen]

theorem writesLocal_of_positive (untouched : Untouched mem) (sized : Sized mem)
    (positive : mem.tlbSize ≠ 0) {calls : List Call} (legal : ∀ call ∈ calls, call.Legal mem) :
    WritesLocal mem calls := by
  rintro done call rest rfl isWrite
  have legalDone : ∀ other ∈ done, other.Legal mem :=
    fun other member => legal other (List.mem_append_left _ member)
  obtain ⟨before, ran, coherent, same, -⟩ := run_refines sized untouched.coherent positive legalDone
  have sizedBefore := sized.of_layout same
  have positiveBefore : before.tlbSize ≠ 0 := by rwa [(layout_fields same).2]
  obtain ⟨after, stepped, coherentAfter, sameAfter, seen⟩ :=
    step_refines sizedBefore coherent positiveBefore
      ((legal call (List.mem_append_right _ (List.mem_cons_self ..))).of_layout same)
  refine ⟨_, before, after, ran, ?_, fun vAddr valid outside => ?_⟩
  · cases call with
    | write | writeFlags => exact stepped
    | read => simp [Call.isWrite] at isWrite
  · have validBefore : before.isValidVirtAddr vAddr = true := by
      rwa [isValidVirtAddr_layout same]
    rw [observe_valid sizedBefore coherent positiveBefore validBefore,
      observe_valid (sizedBefore.of_layout sameAfter) coherentAfter
        (by rwa [(layout_fields sameAfter).2]) (by rwa [isValidVirtAddr_layout sameAfter]),
      seen, flatStep_outside isWrite _ outside]

theorem touchPage_tlb (mem : RevMem) (page : Nat) :
    (mem.touchPage page).2.tlb = mem.tlb ∧ (mem.touchPage page).2.tlbSize = mem.tlbSize := by
  unfold RevMem.touchPage
  split <;> exact ⟨rfl, rfl⟩

-- With room for no entry the first translation takes the back of an empty queue.
theorem calcPhysAddr_noEntry (untouched : Untouched mem) (noRoom : mem.tlbSize = 0)
    (valid : mem.isValidVirtAddr vAddr = true) (page : Nat) :
    mem.calcPhysAddr page vAddr = .error .emptyLRU := by
  let missed : RevMem := { mem with memStats := { mem.memStats with
    tlbMisses := (mem.memStats.tlbMisses + 1) % 2 ^ 64 } }
  have searched : mem.searchTLB vAddr = (invalidAddr, missed) := by
    have empty : mem.tlb.search vAddr = (none, mem.tlb) := by rw [untouched.noEntry]; rfl
    simp only [RevMem.searchTLB, empty, missed]
  have checked : missed.isValidVirtAddr vAddr = true := valid
  have refused : ∀ physAddr, (missed.touchPage page).2.addToTLB vAddr physAddr = .error .emptyLRU := by
    intro physAddr
    rw [RevMem.addToTLB, (touchPage_tlb missed page).1, (touchPage_tlb missed page).2]
    rw [show missed.tlb = Cache.empty from untouched.noEntry, show missed.tlbSize = 0 from noRoom,
      Cache.add_empty_zero]
  simp only [RevMem.calcPhysAddr, searched, checked, refused, if_true]

theorem locate_noEntry (untouched : Untouched mem) (noRoom : mem.tlbSize = 0) {addr : Nat}
    (valid : mem.isValidVirtAddr addr = true) (len : Nat) :
    mem.locate addr len = .error .emptyLRU := by
  simp only [RevMem.locate, calcPhysAddr_noEntry untouched noRoom valid]

theorem storeLocal_noEntry (untouched : Untouched mem) (noRoom : mem.tlbSize = 0) {addr : Nat}
    (valid : mem.isValidVirtAddr addr = true) (len : Nat) (data : Buffer) :
    mem.storeLocal addr len data = .error .emptyLRU := by
  have revoked : Untouched (mem.revokeFuture addr).2 :=
    ⟨untouched.noPage, untouched.noFrame, untouched.noEntry, untouched.zeroed⟩
  have located : (mem.revokeFuture addr).2.locate addr len = .error .emptyLRU :=
    locate_noEntry revoked noRoom valid len
  simp only [RevMem.storeLocal, located]

theorem step_noEntry (untouched : Untouched mem) (noRoom : mem.tlbSize = 0) {call : Call}
    (legal : call.Legal mem) : call.step mem = .error .emptyLRU := by
  have valid : mem.isValidVirtAddr call.addr = true := legal.valid 0 legal.nonempty
  cases call with
  | write hart addr len data =>
    have stored := storeLocal_noEntry untouched noRoom valid len data
    simp only [Call.addr] at stored
    simp only [step, RevMem.writeMem, stored]
  | writeFlags hart addr len data flags =>
    have stored := storeLocal_noEntry untouched noRoom valid len data
    simp only [Call.addr] at stored
    simp only [step, RevMem.writeMemFlags, stored]
  | read hart addr len target flags =>
    have located := locate_noEntry untouched noRoom valid len
    simp only [Call.addr] at located
    simp only [step, RevMem.readMem, located]

theorem observe_noEntry (untouched : Untouched mem) (noRoom : mem.tlbSize = 0)
    (valid : mem.isValidVirtAddr vAddr = true) : observe mem vAddr = .error .emptyLRU := by
  simp only [observe, RevMem.readMem, locate_noEntry untouched noRoom valid]

-- The refinement holds for every TLB size but zero, where the first access faults.
theorem refines_flat_iff (untouched : Untouched mem) (sized : Sized mem) {calls : List Call}
    (legal : ∀ call ∈ calls, call.Legal mem) :
    RefinesFlat mem calls ∧ WritesLocal mem calls ↔
      mem.tlbSize ≠ 0 ∨ ∀ vAddr, mem.isValidVirtAddr vAddr = false := by
  constructor
  · rintro ⟨⟨after, ran, seen⟩, -⟩
    by_contra failing
    simp only [not_or, not_not, not_forall, Bool.not_eq_false] at failing
    obtain ⟨noRoom, vAddr, valid⟩ := failing
    cases calls with
    | nil =>
      simp only [run, Except.ok.injEq, Prod.mk.injEq] at ran
      have value := seen vAddr valid
      rw [← ran.2, observe_noEntry untouched noRoom valid] at value
      exact absurd value (by simp)
    | cons call rest =>
      simp only [run, step_noEntry untouched noRoom (legal call (List.mem_cons_self ..))] at ran
      exact absurd ran (by simp)
  · rintro (positive | noAddress)
    · exact ⟨refinesFlat_of_positive untouched sized positive legal,
        writesLocal_of_positive untouched sized positive legal⟩
    · have nothing : calls = [] := by
        cases calls with
        | nil => rfl
        | cons call rest =>
          have first := legal call (List.mem_cons_self ..)
          have valid := first.valid 0 first.nonempty
          rw [noAddress] at valid
          exact absurd valid (by simp)
      subst nothing
      refine ⟨⟨mem, rfl, fun vAddr valid => ?_⟩, fun done call rest split => ?_⟩
      · rw [noAddress] at valid
        exact absurd valid (by simp)
      · simp at split

-- A memory of eight pages with no segment and no heap: its valid addresses are the stack's.
theorem valid_stack_only (tlbSize vAddr : Nat) :
    (RevMem.new 2097152 tlbSize 1 0).isValidVirtAddr vAddr = true ↔
      1047552 ≤ vAddr ∧ vAddr < 2097152 := by
  have bottom : ((2097152 + 2 ^ 64 - 1024) % 2 ^ 64 + 2 ^ 64 - 1024 * 1024) % 2 ^ 64 = 1047552 := by
    decide
  dsimp only [RevMem.isValidVirtAddr, RevMem.new, stackSize]
  simp only [List.any_nil, bottom, Bool.false_eq_true, if_false]
  split_ifs with onStack
  · simp [onStack]
  · simp only [Bool.and_eq_true, decide_eq_true_eq]
    omega

theorem sized_stack_only (tlbSize : Nat) : Sized (RevMem.new 2097152 tlbSize 1 0) :=
  ⟨by simp [RevMem.new, pageSize], by simp [RevMem.new],
    fun vAddr valid => ((valid_stack_only tlbSize vAddr).mp valid).2⟩

theorem untouched_new (memSize tlbSize heapstart heapend : Nat) :
    Untouched (RevMem.new memSize tlbSize heapstart heapend) := ⟨rfl, rfl, rfl, rfl⟩

def acrossPages : List Call :=
  [.write 0 1310710 20 (fun index => BitVec.ofNat 8 index),
    .read 0 1310715 10 (fun _ => 0xff) 0,
    .writeFlags 1 1310720 1 (fun _ => 0x5a) 0]

theorem acrossPages_legal (tlbSize : Nat) :
    ∀ call ∈ acrossPages, call.Legal (RevMem.new 2097152 tlbSize 1 0) := by
  intro call member
  simp only [acrossPages, List.mem_cons, List.not_mem_nil, or_false] at member
  rcases member with rfl | rfl | rfl
  all_goals
    refine ⟨by decide, by decide, fun step inside => ?_⟩
    simp only [Call.addr, Call.len] at inside ⊢
    exact (valid_stack_only tlbSize _).mpr (by omega)

theorem refines_flat_iff_across_pages :
    RefinesFlat (RevMem.new 2097152 1 1 0) acrossPages ∧
      WritesLocal (RevMem.new 2097152 1 1 0) acrossPages :=
  (refines_flat_iff (untouched_new ..) (sized_stack_only 1) (acrossPages_legal 1)).mpr
    (.inl (by decide))

-- tlbSize = 0 passes every assumption and the first write of the run already faults.
theorem refines_flat_no_tlb :
    Untouched (RevMem.new 2097152 0 1 0) ∧ Sized (RevMem.new 2097152 0 1 0) ∧
      (∀ call ∈ acrossPages, call.Legal (RevMem.new 2097152 0 1 0)) ∧
      run (RevMem.new 2097152 0 1 0) acrossPages = .error .emptyLRU ∧
      ¬ (RefinesFlat (RevMem.new 2097152 0 1 0) acrossPages ∧
        WritesLocal (RevMem.new 2097152 0 1 0) acrossPages) := by
  have faults : run (RevMem.new 2097152 0 1 0) acrossPages = .error .emptyLRU := by
    have first := step_noEntry (untouched_new 2097152 0 1 0) rfl
      (acrossPages_legal 0 (.write 0 1310710 20 (fun index => BitVec.ofNat 8 index))
        (List.mem_cons_self ..))
    simp only [acrossPages, run, first]
  refine ⟨untouched_new .., sized_stack_only 0, acrossPages_legal 0, faults, ?_⟩
  rintro ⟨⟨after, ran, -⟩, -⟩
  rw [faults] at ran
  exact absurd ran (by simp)

end RevCPU.MemRefine
