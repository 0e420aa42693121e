import RevCPU.LoadCtrl
import RevCPU.PrefetchWord
/-!
When a prefetch ends the simulation. A fill reads `depth` words through the translation that every access
takes, so each of them has to be a valid address or to be in the TLB when its turn comes, whether it is
ever executed or not.
-/
namespace RevCPU.Prefetch
open Mem LruCache MemRefine

/-- The segmentation-fault path of CalcPhysAddr. -/
def SegFaults {α : Type} (result : Except MemFault α) : Prop :=
  ∃ vAddr, result = .error (.segFault vAddr)

/-- ReadVal of an instruction word, through the controller where there is one. `place` is where the host
keeps the word and its hazard. -/
def readVal (hart : Nat) (place : BitVec 64 → Nat × Nat) (addr : BitVec 64) :
    RevMem × Option MemCtrl.Ctrl → Except MemFault (Option (BitVec 32) × (RevMem × Option MemCtrl.Ctrl))
  | (mem, none) =>
    match readWord hart addr mem with
    | .error fault => .error fault
    | .ok (word, mem) => .ok (word, (mem, none))
  | (mem, some ctrl) =>
    match mem.locate addr.toNat 4 with
    | .error fault => .error fault
    | .ok (_, after) =>
      match LoadCtrl.readMemCtrl mem ctrl hart addr.toNat 4 (place addr).1 (place addr).2 0 with
      | .error fault => .error fault
      | .ok ctrl =>
        .ok (none, ({ after with memStats := { after.memStats with
          bytesRead := (after.memStats.bytesRead + 4) % 2 ^ 32 } }, some ctrl))

def fillBase (addr : BitVec 64) : BitVec 64 :=
  if addr % 4 ≠ 0 then addr &&& 0xFFFFFFFFFFFFFFFC#64 else addr

/-- The keys of the TLB after the first words of a fill were read. -/
def usedKeys (mem : RevMem) (base : BitVec 64) : Nat → List Nat
  | 0 => mem.tlb.keys
  | count + 1 => Cache.used mem.tlbSize (usedKeys mem base count) (wordAddr base count).toNat

/-- Each word of a fill is valid or in the TLB when its turn comes. -/
def Readable (mem : RevMem) (base : BitVec 64) (count : Nat) : Prop :=
  ∀ index < count, (wordAddr base index).toNat ∈ usedKeys mem base index ∨
    mem.isValidVirtAddr (wordAddr base index).toNat = true

def isAvailFills (fetch : RevPrefetcher) (addr : BitVec 64) : Option (BitVec 64) :=
  match first fetch addr with
  | none => some addr
  | some stream =>
    if held addr stream ≠ initAddr ∧ lastAddr fetch.depth stream - addr < 4 ∧
        scanUpper fetch.depth (addr + 2) fetch.streams = .missing then some (addr + 2)
    else none

def instFetchFills (fetch : RevPrefetcher) (addr : BitVec 64) : Option (BitVec 64) :=
  match first fetch addr with
  | none => some addr
  | some stream =>
    let consumed := if offset addr stream = fetch.depth - 1 then some (addr + 2) else none
    if held addr stream = initAddr then none
    else if addr = heldAt addr stream then consumed
    else
      match scanUpper fetch.depth (addr + 2) fetch.streams with
      | .word _ => consumed
      | .missing => some (addr + 2)
      | _ => none

/-- The pages in use and the pages of a fill have frames in physical memory, whose ends 32 bits can hold,
and the TLB repeats the page map. -/
structure Backed (pages : Finset Nat) (mem : RevMem) : Prop where
  exact : FirstTouch.Exact mem.pageMap mem.nextPage
  owned : ∀ page frame, mem.pageMap page = some frame → page ∈ pages
  room : pages.card * pageSize ≤ mem.memSize
  few : pages.card < 2 ^ 14
  cached : ∀ vAddr physAddr, mem.tlb.lookup vAddr = some physAddr →
    FirstTouch.place mem.pageMap pageSize vAddr = some physAddr
  positive : mem.tlbSize ≠ 0

/-- The pages of the valid words of a fill. -/
def Inside (pages : Finset Nat) (mem : RevMem) (base : BitVec 64) (count : Nat) : Prop :=
  ∀ index < count, mem.isValidVirtAddr (wordAddr base index).toNat = true →
    (wordAddr base index).toNat / pageSize ∈ pages

-- A copy inside physical memory ends.
theorem copyOut_inside {mem : RevMem} {base cur count : Nat} {data : Buffer}
    (inside : base + count ≤ mem.memSize) : ∃ buffer, mem.copyOut base cur data count = .ok buffer := by
  induction count with
  | zero => exact ⟨data, rfl⟩
  | succ count ih =>
    have ⟨buffer, copied⟩ := ih (by omega)
    have room : base + count < mem.memSize := by omega
    exact ⟨_, by rw [RevMem.copyOut, copied]; exact if_pos room⟩

section Backed
variable {pages : Finset Nat} {mem : RevMem} {vAddr : Nat} (backed : Backed pages mem)
include backed

theorem Backed.frame_fits {page frame : Nat} (owner : mem.pageMap page = some frame) :
    (frame + 1) * pageSize ≤ mem.memSize ∧ (frame + 1) * pageSize < 2 ^ 32 := by
  have below := backed.exact.below page frame owner
  have count := backed.exact.next_le_card pages backed.owned
  have small := backed.few
  have room := backed.room
  have inside : (frame + 1) * pageSize ≤ pages.card * pageSize :=
    Nat.mul_le_mul_right pageSize (Nat.le_trans below count)
  refine ⟨Nat.le_trans inside room, ?_⟩
  simp only [pageSize]
  omega

theorem Backed.pageBase {page frame : Nat} (owner : mem.pageMap page = some frame) :
    RevMem.pageBase frame = frame * pageSize := by
  have fits := (backed.frame_fits owner).2
  simp only [RevMem.pageBase, addrShift, pageSize, Nat.shiftLeft_eq] at fits ⊢
  omega

theorem Backed.cached_ne {physAddr : Nat} (hit : mem.tlb.lookup vAddr = some physAddr) :
    physAddr ≠ invalidAddr := by
  have ⟨frame, owner, same⟩ := Option.map_eq_some_iff.mp (backed.cached vAddr physAddr hit)
  have fits := (backed.frame_fits owner).2
  simp only [pageSize, invalidAddr] at fits same ⊢
  omega

theorem Backed.touchPage (page : Nat) (inside : page ∈ pages) :
    Backed pages (mem.touchPage page).2 ∧
      (mem.touchPage page).2.pageMap page = some (mem.touchPage page).1 ∧
      layout (mem.touchPage page).2 = layout mem := by
  unfold RevMem.touchPage
  split
  · rename_i fresh
    have below := backed.exact.next_lt_card fresh pages inside backed.owned
    have few := backed.few
    have noWrap : (mem.nextPage + 1) % 2 ^ 32 = mem.nextPage + 1 := by omega
    dsimp only
    rw [noWrap]
    refine ⟨⟨backed.exact.assign fresh, ?_, backed.room, few, ?_, backed.positive⟩,
      Function.update_self _ _ _, rfl⟩
    · intro other frame owner
      by_cases same : other = page
      · rw [same]
        exact inside
      · dsimp only at owner
        rw [Function.update_of_ne same] at owner
        exact backed.owned other frame owner
    · intro vAddr physAddr hit
      exact FirstTouch.place_assign fresh (backed.cached vAddr physAddr hit)
  · rename_i frame owner
    exact ⟨backed, owner, rfl⟩

-- A change of the TLB that the page map bears out.
theorem Backed.retain {after : RevMem} (same : layout after = layout mem)
    (pageMap : after.pageMap = mem.pageMap) (nextPage : after.nextPage = mem.nextPage)
    (cached : ∀ vAddr physAddr, after.tlb.lookup vAddr = some physAddr →
      FirstTouch.place mem.pageMap pageSize vAddr = some physAddr) : Backed pages after := by
  have ⟨memSize, tlbSize⟩ := layout_fields same
  constructor
  · rw [pageMap, nextPage]
    exact backed.exact
  · rw [pageMap]
    exact backed.owned
  · rw [memSize]
    exact backed.room
  · exact backed.few
  · rw [pageMap]
    exact cached
  · rw [tlbSize]
    exact backed.positive

theorem Backed.searchTLB (vAddr : Nat) : Backed pages (mem.searchTLB vAddr).2 := by
  have ⟨pageMap, nextPage, same⟩ := Tlb.searchTLB_pages mem vAddr
  apply backed.retain same pageMap nextPage
  intro other physAddr hit
  rw [Tlb.searchTLB_tlb, Cache.lookup_search] at hit
  exact backed.cached other physAddr hit

theorem Backed.addToTLB {physAddr : Nat}
    (behind : FirstTouch.place mem.pageMap pageSize vAddr = some physAddr) :
    ∃ after, mem.addToTLB vAddr physAddr = .ok after ∧ Backed pages after ∧
      layout after = layout mem ∧ after.pageMap = mem.pageMap := by
  have ⟨tlb, added⟩ := mem.tlb.add_succeeds backed.positive vAddr physAddr
  refine ⟨{ mem with tlb := tlb }, by rw [RevMem.addToTLB, added], ?_, rfl, rfl⟩
  refine backed.retain rfl rfl rfl ?_
  intro other bound hit
  rcases Cache.lookup_add added other hit with ⟨same, value⟩ | old
  · rw [same, value]
    exact behind
  · exact backed.cached other bound old

theorem Backed.calcPhysAddr (known : Known mem vAddr)
    (inside : mem.isValidVirtAddr vAddr = true → vAddr / pageSize ∈ pages) :
    ∃ physAddr after, mem.calcPhysAddr (vAddr / pageSize) vAddr = .ok (physAddr, after) ∧
      Backed pages after ∧ layout after = layout mem ∧
      FirstTouch.place after.pageMap pageSize vAddr = some physAddr := by
  have searched := backed.searchTLB vAddr
  have ⟨pageMap, _, same⟩ := Tlb.searchTLB_pages mem vAddr
  cases found : mem.tlb.lookup vAddr with
  | some cell =>
    refine ⟨cell, _, Tlb.calcPhysAddr_cached _ found (backed.cached_ne found), searched, same, ?_⟩
    rw [pageMap]
    exact backed.cached vAddr cell found
  | none =>
    have valid : mem.isValidVirtAddr vAddr = true := by
      rcases known with member | valid
      · have ⟨cell, hit⟩ := Cache.mem_keys.mp member
        rw [found] at hit
        cases hit
      · exact valid
    have missed : (mem.searchTLB vAddr).1 = invalidAddr := by rw [Tlb.searchTLB_miss found]
    have still : (mem.searchTLB vAddr).2.isValidVirtAddr vAddr = true := by
      rw [isValidVirtAddr_layout same, valid]
    generalize outcome : mem.searchTLB vAddr = result at searched same missed still
    rcases result with ⟨cached, first⟩
    have ⟨touched, owner, sameTouch⟩ := searched.touchPage (vAddr / pageSize) (inside valid)
    generalize touch : first.touchPage (vAddr / pageSize) = page at touched owner sameTouch
    rcases page with ⟨frame, second⟩
    have base := touched.pageBase owner
    have behind : FirstTouch.place second.pageMap pageSize vAddr =
        some (frame * pageSize + vAddr % pageSize) :=
      FirstTouch.place_mapped owner
    have ⟨last, added, cachedIt, sameLast, pagesLast⟩ := touched.addToTLB behind
    refine ⟨_, last, ?_, cachedIt, sameLast.trans (sameTouch.trans same), pagesLast ▸ behind⟩
    dsimp only at missed still
    simp only [RevMem.calcPhysAddr, outcome, missed, still, touch, base, page_offset, added, if_true]

-- A word that is known lies on one page of physical memory.
theorem Backed.locate (whole : vAddr % 4 = 0) (known : Known mem vAddr)
    (inside : mem.isValidVirtAddr vAddr = true → vAddr / pageSize ∈ pages) :
    ∃ physAddr after, mem.locate vAddr 4 = .ok (⟨physAddr, 4, 0, 0⟩, after) ∧
      physAddr + 4 ≤ after.memSize ∧ Backed pages after ∧ layout after = layout mem ∧
      after.tlb.keys = Cache.used mem.tlbSize mem.tlb.keys vAddr := by
  have ⟨physAddr, after, translated, backed', same, behind⟩ := backed.calcPhysAddr known inside
  have keys := calcPhysAddr_used (fun _ => backed.cached_ne) translated
  have ⟨frame, owner, cell⟩ := Option.map_eq_some_iff.mp behind
  have ⟨fits, small⟩ := backed'.frame_fits owner
  have base := backed'.pageBase owner
  have frames : after.frameOf (vAddr / pageSize) = (frame, after) := by
    rw [RevMem.frameOf, owner]
  have within : ¬ (frame * pageSize + pageSize) % 2 ^ 32 < (physAddr + 4) % 2 ^ 64 := by
    simp only [pageSize] at small cell ⊢
    omega
  refine ⟨physAddr, after, ?_, ?_, backed', same, keys⟩
  · simp only [RevMem.locate, page_shift, translated, frames, base, within, if_false]
  · simp only [pageSize] at fits cell
    omega

theorem Backed.readVal {addr : BitVec 64} (hart : Nat) (place : BitVec 64 → Nat × Nat)
    (ctrl : Option MemCtrl.Ctrl) (whole : addr.toNat % 4 = 0) (known : Known mem addr.toNat)
    (inside : mem.isValidVirtAddr addr.toNat = true → addr.toNat / pageSize ∈ pages) :
    ∃ word after sent, readVal hart place addr (mem, ctrl) = .ok (word, (after, sent)) ∧
      Backed pages after ∧ layout after = layout mem ∧
      after.tlb.keys = Cache.used mem.tlbSize mem.tlb.keys addr.toNat := by
  obtain ⟨physAddr, after, located, room, backed', same, keys⟩ := backed.locate whole known inside
  have counted : Backed pages { after with memStats := { after.memStats with
      bytesRead := (after.memStats.bytesRead + 4) % 2 ^ 32 } } :=
    backed'.retain rfl rfl rfl backed'.cached
  cases ctrl with
  | none =>
    obtain ⟨buffer, copied⟩ : ∃ buffer, after.copyOut physAddr 0
      (fun index => (initAddr >>> (8 * index)).setWidth 8) 4 = .ok buffer := copyOut_inside room
    have rest : ∀ buffer, after.copyOut 0 4 buffer 0 = .ok buffer := fun _ => rfl
    refine ⟨some (BitVec.ofNat 32 (LittleEndian.value buffer 4)), _, none, ?_, counted, same, keys⟩
    simp only [Prefetch.readVal, readWord, RevMem.readMem, located, copied, rest]
  | some ctrl =>
    obtain ⟨sent, requested⟩ : ∃ sent, LoadCtrl.readMemCtrl mem ctrl hart addr.toNat 4 (place addr).1
        (place addr).2 0 = .ok sent := by
      rw [LoadCtrl.readMemCtrl, located]
      dsimp only
      split
      · exact ⟨_, rfl⟩
      · exact ⟨_, rfl⟩
    refine ⟨none, _, some sent, ?_, counted, same, keys⟩
    simp only [Prefetch.readVal, located, requested]

end Backed

theorem readVal_unknown {mem : RevMem} {addr : BitVec 64} (hart : Nat) (place : BitVec 64 → Nat × Nat)
    (ctrl : Option MemCtrl.Ctrl) (unknown : ¬ Known mem addr.toNat) :
    readVal hart place addr (mem, ctrl) = .error (.segFault addr.toNat) := by
  cases ctrl with
  | none => rw [readVal, readWord_unknown hart unknown]
  | some ctrl =>
    have fault := calcPhysAddr_unknown (addr.toNat >>> addrShift) unknown
    rw [readVal, RevMem.locate, fault]

section Fills
variable {pages : Finset Nat} {mem : RevMem} (hart : Nat) (place : BitVec 64 → Nat × Nat)
  (ctrl : Option MemCtrl.Ctrl) {base : BitVec 64}


theorem readable_succ {count : Nat} : Readable mem base (count + 1) ↔
    Readable mem base count ∧ ((wordAddr base count).toNat ∈ usedKeys mem base count ∨
      mem.isValidVirtAddr (wordAddr base count).toNat = true) := by
  constructor
  · intro readable
    exact ⟨fun index below => readable index (Nat.lt_succ_of_lt below),
      readable count (Nat.lt_succ_self count)⟩
  · rintro ⟨earlier, last⟩ index below
    rcases Nat.lt_succ_iff_lt_or_eq.mp below with old | same
    · exact earlier index old
    · rw [same]
      exact last

variable (backed : Backed pages mem) (based : base.toNat % 4 = 0)
include backed based

theorem fillWords_readable {count : Nat} (inside : Inside pages mem base count)
    (readable : Readable mem base count) :
    ∃ stream after sent,
      fillWords (readVal hart place) base (mem, ctrl) count = .ok (stream, (after, sent)) ∧
      Backed pages after ∧ layout after = layout mem ∧ after.tlb.keys = usedKeys mem base count := by
  induction count with
  | zero => exact ⟨_, mem, ctrl, rfl, backed, rfl, rfl⟩
  | succ count ih =>
    have ⟨earlier, last⟩ := readable_succ.mp readable
    have ⟨stream, after, sent, filled, backed', same, keys⟩ :=
      ih (fun index below => inside index (Nat.lt_succ_of_lt below)) earlier
    have known : Known after (wordAddr base count).toNat := by
      rw [Known, keys, isValidVirtAddr_layout same]
      exact last
    have page : after.isValidVirtAddr (wordAddr base count).toNat = true →
        (wordAddr base count).toNat / pageSize ∈ pages := by
      rw [isValidVirtAddr_layout same]
      exact inside count (Nat.lt_succ_self count)
    have ⟨word, memory, sent', read, backed'', same', keys'⟩ :=
      backed'.readVal hart place sent (wordAddr_aligned based count) known page
    rw [wordAddr] at read
    have used : memory.tlb.keys = usedKeys mem base (count + 1) := by
      rw [keys', keys, (layout_fields same).2, usedKeys]
    rw [fillWords, filled]
    dsimp only
    rw [read]
    cases word with
    | none => exact ⟨stream, memory, sent', rfl, backed'', same'.trans same, used⟩
    | some word => exact ⟨_, memory, sent', rfl, backed'', same'.trans same, used⟩

theorem fillWords_unreadable {count : Nat} (inside : Inside pages mem base count)
    (unreadable : ¬ Readable mem base count) :
    SegFaults (fillWords (readVal hart place) base (mem, ctrl) count) := by
  induction count with
  | zero => exact absurd (fun index below => absurd below (Nat.not_lt_zero index)) unreadable
  | succ count ih =>
    have inside' : Inside pages mem base count := fun index below =>
      inside index (Nat.lt_succ_of_lt below)
    by_cases earlier : Readable mem base count
    · obtain ⟨stream, after, sent, filled, _, same, keys⟩ :=
        fillWords_readable hart place ctrl backed based inside' earlier
      have unknown : ¬ Known after (wordAddr base count).toNat := by
        rw [Known, keys, isValidVirtAddr_layout same]
        exact fun last => unreadable (readable_succ.mpr ⟨earlier, last⟩)
      have fault := readVal_unknown hart place sent unknown
      rw [wordAddr] at fault
      refine ⟨(wordAddr base count).toNat, ?_⟩
      rw [fillWords, filled]
      dsimp only
      rw [fault, wordAddr]
    · obtain ⟨vAddr, fault⟩ := ih inside' earlier
      exact ⟨vAddr, by rw [fillWords, fault]⟩

theorem fillWords_faults {count : Nat} (inside : Inside pages mem base count) :
    SegFaults (fillWords (readVal hart place) base (mem, ctrl) count) ↔ ¬ Readable mem base count := by
  constructor
  · rintro ⟨vAddr, fault⟩ readable
    have ⟨stream, after, sent, filled, _⟩ :=
      fillWords_readable hart place ctrl backed based inside readable
    rw [filled] at fault
    cases fault
  · exact fillWords_unreadable hart place ctrl backed based inside

end Fills

section Calls
variable {σ : Type} {readVal : BitVec 64 → σ → Except MemFault (Option (BitVec 32) × σ)}
  {addr : BitVec 64} {fetch : RevPrefetcher} {mem : σ}

/-- The fill of a call, if it makes one, reads an address that is not there. -/
def FillFaults (readVal : BitVec 64 → σ → Except MemFault (Option (BitVec 32) × σ)) (depth : BitVec 32)
    (mem : σ) (target : Option (BitVec 64)) : Prop :=
  ∃ addr, target = some addr ∧ SegFaults (fillWords readVal (fillBase addr) mem depth.toNat)

theorem fillFaults_none : ¬ FillFaults readVal fetch.depth mem none := by
  rintro ⟨target, none, _⟩
  cases none

theorem fillFaults_some {target : BitVec 64} : FillFaults readVal fetch.depth mem (some target) ↔
    SegFaults (fillWords readVal (fillBase target) mem fetch.depth.toNat) := by
  constructor
  · rintro ⟨other, same, faults⟩
    cases same
    exact faults
  · exact fun faults => ⟨target, rfl, faults⟩

theorem segFaults_ok {α : Type} {value : α} : ¬ SegFaults (.ok value) := by
  rintro ⟨vAddr, fault⟩
  cases fault

-- A fault is passed on as it is.
theorem segFaults_error {α : Type} {fault : MemFault} :
    SegFaults (.error fault : Except MemFault α) ↔ ∃ vAddr, fault = .segFault vAddr := by
  constructor
  · rintro ⟨vAddr, same⟩
    cases same
    exact ⟨vAddr, rfl⟩
  · rintro ⟨vAddr, same⟩
    exact ⟨vAddr, congrArg Except.error same⟩

-- An answer without a fill.
theorem answer_faults {α : Type} {value : α} :
    SegFaults (.ok value) ↔ FillFaults readVal fetch.depth mem none :=
  iff_of_false segFaults_ok fillFaults_none

theorem fill_faults {target : BitVec 64} : SegFaults (fill readVal target fetch mem) ↔
    FillFaults readVal fetch.depth mem (some target) := by
  rw [fillFaults_some, fill, fillBase]
  generalize fillWords readVal (if target % 4 ≠ 0 then target &&& 0xFFFFFFFFFFFFFFFC#64 else target) mem
    fetch.depth.toNat = result
  cases result with
  | error fault => exact segFaults_error.trans segFaults_error.symm
  | ok filling => exact iff_of_false segFaults_ok segFaults_ok

-- An answer behind a fill faults as the fill does.
theorem fillThen_faults {α : Type} {answer : α} {target : BitVec 64} :
    SegFaults (fillThen readVal target answer fetch mem) ↔
      FillFaults readVal fetch.depth mem (some target) := by
  rw [← fill_faults, fillThen]
  cases fill readVal target fetch mem with
  | error fault => exact segFaults_error.trans segFaults_error.symm
  | ok filling => exact iff_of_false segFaults_ok segFaults_ok

theorem fetchUpper_faults {inst : BitVec 32} : SegFaults (fetchUpper readVal addr inst fetch mem) ↔
    FillFaults readVal fetch.depth mem
      (if scanUpper fetch.depth addr fetch.streams = .missing then some addr else none) := by
  rw [fetchUpper]
  cases scanUpper fetch.depth addr fetch.streams with
  | missing => exact fillThen_faults
  | beyond => exact answer_faults
  | waiting => exact answer_faults
  | word inst => exact answer_faults

theorem isAvail_faults : SegFaults (isAvail readVal addr fetch mem) ↔
    FillFaults readVal fetch.depth mem (isAvailFills fetch addr) := by
  rw [isAvailFills]
  cases found : first fetch addr with
  | none =>
    rw [isAvail_missing found]
    exact fillThen_faults
  | some stream =>
    rw [isAvail_found found]
    dsimp only
    by_cases waiting : held addr stream = initAddr
    · rw [if_pos waiting, if_neg (fun starts => starts.1 waiting)]
      exact answer_faults
    · rw [if_neg waiting]
      by_cases short : lastAddr fetch.depth stream - addr < 4
      · rw [if_pos short]
        simp only [waiting, short, ne_eq, not_false_eq_true, true_and]
        have upper : SegFaults (fetchUpper readVal (addr + 2) 0 fetch mem) ↔ _ := fetchUpper_faults
        rw [← upper]
        cases fetchUpper readVal (addr + 2) 0 fetch mem with
        | error fault => exact segFaults_error.trans segFaults_error.symm
        | ok result => exact iff_of_false segFaults_ok segFaults_ok
      · rw [if_neg short, if_neg (fun starts => short starts.2.1)]
        exact answer_faults

theorem deleteStream_depth {index : Nat} : (deleteStream fetch index).depth = fetch.depth := by
  rw [deleteStream]
  split
  · rfl
  · rfl

theorem consume_faults {stream : Stream} {reply : Reply} :
    SegFaults (consume readVal addr stream reply fetch mem) ↔
      FillFaults readVal fetch.depth mem
        (if offset addr stream = fetch.depth - 1 then some (addr + 2) else none) := by
  rw [consume]
  by_cases last : offset addr stream = fetch.depth - 1
  · have fills : SegFaults (fillThen readVal (addr + 2) reply
        (deleteStream fetch (fetch.streams.findIdx (contains fetch.depth addr))) mem) ↔ _ :=
      fillThen_faults
    rw [deleteStream_depth] at fills
    rw [if_pos last, if_pos last]
    exact fills
  · rw [if_neg last, if_neg last]
    exact answer_faults

theorem instFetch_faults {inst : BitVec 32} : SegFaults (instFetch readVal addr inst fetch mem) ↔
    FillFaults readVal fetch.depth mem (instFetchFills fetch addr) := by
  rw [instFetchFills]
  cases found : first fetch addr with
  | none =>
    rw [instFetch_missing found]
    exact fillThen_faults
  | some stream =>
    have within := offset_within (first_some found).2
    rw [first] at found
    rw [instFetch, found]
    dsimp only
    rw [if_neg within]
    by_cases waiting : held addr stream = initAddr
    · rw [if_pos waiting, if_pos waiting]
      exact answer_faults
    · rw [if_neg waiting, if_neg waiting]
      by_cases whole : addr = heldAt addr stream
      · rw [if_pos whole, if_pos whole]
        exact consume_faults
      · rw [if_neg whole, if_neg whole, fetchUpper]
        cases scanUpper fetch.depth (addr + 2) fetch.streams with
        | missing =>
          have fills : SegFaults (fillThen readVal (addr + 2) held fetch mem) ↔ _ := fillThen_faults
          rw [← fills, fillThen]
          cases fill readVal (addr + 2) fetch mem with
          | error fault => exact segFaults_error.trans segFaults_error.symm
          | ok result => exact iff_of_false segFaults_ok segFaults_ok
        | beyond => exact answer_faults
        | waiting => exact answer_faults
        | word inst => exact consume_faults

end Calls

section Faults
variable {pages : Finset Nat} {mem : RevMem} {addr : BitVec 64} {fetch : RevPrefetcher}

theorem isAvailFills_target {target : BitVec 64} (starts : isAvailFills fetch addr = some target) :
    target = addr ∨ target = addr + 2 := by
  rw [isAvailFills] at starts
  split at starts
  · exact .inl (Option.some.inj starts).symm
  · split at starts
    · exact .inr (Option.some.inj starts).symm
    · cases starts

theorem instFetchFills_target {target : BitVec 64} (starts : instFetchFills fetch addr = some target) :
    target = addr ∨ target = addr + 2 := by
  have taken : ∀ {next : Option (BitVec 64)}, next = some (addr + 2) ∨ next = none →
      next = some target → target = addr + 2 := by
    rintro next (same | same) starts
    · rw [same] at starts
      exact (Option.some.inj starts).symm
    · rw [same] at starts
      cases starts
  have consumed : ∀ stream, (if offset addr stream = fetch.depth - 1 then some (addr + 2) else none) =
      some (addr + 2) ∨ (if offset addr stream = fetch.depth - 1 then some (addr + 2) else none) = none :=
    fun _ => ite_eq_or_eq _ _ _
  rw [instFetchFills] at starts
  cases found : first fetch addr with
  | none =>
    rw [found] at starts
    exact .inl (Option.some.inj starts).symm
  | some stream =>
    rw [found] at starts
    dsimp only at starts
    right
    by_cases waiting : held addr stream = initAddr
    · rw [if_pos waiting] at starts
      cases starts
    · rw [if_neg waiting] at starts
      by_cases whole : addr = heldAt addr stream
      · rw [if_pos whole] at starts
        exact taken (consumed stream) starts
      · rw [if_neg whole] at starts
        cases upper : scanUpper fetch.depth (addr + 2) fetch.streams with
        | word inst =>
          rw [upper] at starts
          exact taken (consumed stream) starts
        | missing =>
          rw [upper] at starts
          exact taken (.inl rfl) starts
        | beyond =>
          rw [upper] at starts
          cases starts
        | waiting =>
          rw [upper] at starts
          cases starts

theorem fillBase_aligned (addr : BitVec 64) : (fillBase addr).toNat % 4 = 0 := by
  rw [fillBase, base_toNat]
  omega

/-- A prefetch faults exactly where a word of its fill is neither valid nor in the TLB at its turn. -/
theorem prefetch_faults_iff (backed : Backed pages mem)
    (inside : ∀ target, target = addr ∨ target = addr + 2 →
      Inside pages mem (fillBase target) fetch.depth.toNat)
    (hart : Nat) (place : BitVec 64 → Nat × Nat) (ctrl : Option MemCtrl.Ctrl) (inst : BitVec 32) :
    (¬ SegFaults (fill (readVal hart place) addr fetch (mem, ctrl)) ↔
      Readable mem (fillBase addr) fetch.depth.toNat) ∧
    (¬ SegFaults (isAvail (readVal hart place) addr fetch (mem, ctrl)) ↔
      ∀ target, isAvailFills fetch addr = some target →
        Readable mem (fillBase target) fetch.depth.toNat) ∧
    (¬ SegFaults (instFetch (readVal hart place) addr inst fetch (mem, ctrl)) ↔
      ∀ target, instFetchFills fetch addr = some target →
        Readable mem (fillBase target) fetch.depth.toNat) := by
  have words : ∀ target, target = addr ∨ target = addr + 2 →
      (SegFaults (fillWords (readVal hart place) (fillBase target) (mem, ctrl) fetch.depth.toNat) ↔
        ¬ Readable mem (fillBase target) fetch.depth.toNat) := fun target near =>
    fillWords_faults hart place ctrl backed (fillBase_aligned target) (inside target near)
  have fills : ∀ starts : Option (BitVec 64),
      (∀ target, starts = some target → target = addr ∨ target = addr + 2) →
      (¬ FillFaults (readVal hart place) fetch.depth (mem, ctrl) starts ↔
        ∀ target, starts = some target → Readable mem (fillBase target) fetch.depth.toNat) := by
    intro starts near
    constructor
    · intro fine target same
      by_contra unreadable
      exact fine ⟨target, same, (words target (near target same)).mpr unreadable⟩
    · rintro readable ⟨target, same, faults⟩
      exact (words target (near target same)).mp faults (readable target same)
  refine ⟨?_, ?_, ?_⟩
  · have alone : SegFaults (fill (readVal hart place) addr fetch (mem, ctrl)) ↔
        FillFaults (readVal hart place) fetch.depth (mem, ctrl) (some addr) := fill_faults
    rw [alone, fillFaults_some, words addr (.inl rfl), not_not]
  · rw [isAvail_faults]
    exact fills (isAvailFills fetch addr) fun _ => isAvailFills_target
  · rw [instFetch_faults]
    exact fills (instFetchFills fetch addr) fun _ => instFetchFills_target

/-- Sixteen instructions at 0x20000, in a memory of eight pages. -/
def codeMem : RevMem := (RevMem.new 2097152 16 1 0).addMemSegAt 0x20000 64

theorem codeMem_backed : Backed {0} codeMem where
  exact := FirstTouch.exact_empty
  owned := fun page frame owner => by cases owner
  room := by decide
  few := by decide
  cached := fun vAddr physAddr hit => by cases hit
  positive := by decide

theorem codeMem_page {base : BitVec 64} (low : base.toNat ≤ 0x20004) : Inside {0} codeMem base 16 := by
  intro index below _
  have four : (4 : BitVec 32).toNat = 4 := rfl
  rw [Finset.mem_singleton, wordAddr, BitVec.toNat_add, BitVec.toNat_setWidth, BitVec.toNat_mul, four,
    BitVec.toNat_ofNat, pageSize]
  omega

-- The fill at the first instruction stays in the code, the one at the second leaves it.
theorem prefetch_faults_iff_both :
    ¬ SegFaults (fill (readVal 0 fun _ => (0, 0)) 0x20000#64 ⟨16, []⟩ (codeMem, none)) ∧
      SegFaults (instFetch (readVal 0 fun _ => (0, 0)) 0x20004#64 0 ⟨16, []⟩ (codeMem, none)) := by
  constructor
  · have page : ∀ target, target = 0x20000#64 ∨ target = 0x20000#64 + 2 →
        Inside {0} codeMem (fillBase target) 16 := by
      rintro target (same | same)
      · rw [same]
        exact codeMem_page (by decide)
      · rw [same]
        exact codeMem_page (by decide)
    have valid : ∀ index < 16, codeMem.isValidVirtAddr (wordAddr 0x20000#64 index).toNat = true := by decide
    exact (prefetch_faults_iff codeMem_backed page 0 (fun _ => (0, 0)) none 0).1.mpr
      fun index below => .inr (valid index below)
  · have page : ∀ target, target = 0x20004#64 ∨ target = 0x20004#64 + 2 →
        Inside {0} codeMem (fillBase target) 16 := by
      rintro target (same | same)
      · rw [same]
        exact codeMem_page (by decide)
      · rw [same]
        exact codeMem_page (by decide)
    have absent : (wordAddr (fillBase 0x20004#64) 15).toNat ∉
        usedKeys codeMem (fillBase 0x20004#64) 15 := by decide
    have invalid : codeMem.isValidVirtAddr (wordAddr (fillBase 0x20004#64) 15).toNat = false := by decide
    have settled : ¬ SegFaults
        (instFetch (readVal 0 fun _ => (0, 0)) 0x20004#64 0 ⟨16, []⟩ (codeMem, none)) ↔ _ :=
      (prefetch_faults_iff codeMem_backed page 0 (fun _ => (0, 0)) none 0).2.2
    by_contra fine
    rcases settled.mp fine 0x20004#64 rfl 15 (by decide) with cached | valid
    · exact absent cached
    · rw [invalid] at valid
      cases valid

-- The words of a fill run past the code: the last of them ends the simulation.
theorem prefetch_past_code :
    (∀ step < 4, codeMem.isValidVirtAddr (0x20004 + step) = true) ∧
      fill (readVal 0 fun _ => (0, 0)) 0x20004#64 ⟨16, []⟩ (codeMem, none) =
        .error (.segFault 0x20040) ∧
      isAvail (readVal 0 fun _ => (0, 0)) 0x20004#64 ⟨16, []⟩ (codeMem, none) =
        .error (.segFault 0x20040) ∧
      instFetch (readVal 0 fun _ => (0, 0)) 0x20004#64 0 ⟨16, []⟩ (codeMem, none) =
        .error (.segFault 0x20040) := by
  have valid : ∀ step < 4, codeMem.isValidVirtAddr (0x20004 + step) = true := by decide
  exact ⟨valid, rfl, rfl, rfl⟩

end Faults
end RevCPU.Prefetch
