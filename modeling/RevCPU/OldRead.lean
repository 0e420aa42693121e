import RevCPU.ReadPaths
/-!
Where ReadMem without a hart returns, and what it returns in a coherent memory. An address translates where
it is valid or still in the TLB.
-/
namespace RevCPU.OldRead
open Mem MemRefine Pan ReadPaths FirstTouch

section Readable
variable (mem : RevMem) (addr len : Nat)

/-- A run of bytes inside the physical memory. -/
def Inside (base count : Nat) : Prop := count = 0 ∨ base + count ≤ mem.memSize

instance (base count : Nat) : Decidable (Inside mem base count) := inferInstanceAs (Decidable (_ ∨ _))

/-- The addresses of a read translate, and its two runs lie inside the physical memory. -/
def Readable : Prop :=
  match mem.locate addr len with
  | .error _ => False
  | .ok (extent, after) =>
    Inside after extent.physAddr extent.count ∧ Inside after extent.adjPhysAddr extent.span

/-- The memory behind a read: its translations have been made. -/
def afterRead : RevMem :=
  match mem.locate addr len with
  | .error _ => mem
  | .ok (_, after) =>
    { after with memStats := { after.memStats with
        bytesRead := (after.memStats.bytesRead + len) % 2 ^ 32 } }

variable {mem addr len}

theorem readMemOld_readable (readable : Readable mem addr len) (target : Buffer) :
    ∃ data, mem.readMemOld addr len target = .ok (data, afterRead mem addr len) := by
  rw [Readable] at readable
  rw [RevMem.readMemOld, afterRead]
  cases located : mem.locate addr len with
  | error fault =>
    rw [located] at readable
    exact readable.elim
  | ok result =>
    rcases result with ⟨extent, after⟩
    rw [located] at readable
    dsimp only at readable ⊢
    rcases copies_end after extent.physAddr 0 target extent.count with
      ⟨_, _, _, beyond⟩ | ⟨head, _, _⟩
    · exact absurd readable.1 beyond
    · rw [head]
      dsimp only
      rcases copies_end after extent.adjPhysAddr extent.count
          (spread after extent.physAddr 0 target extent.count) extent.span with
        ⟨_, _, _, beyond⟩ | ⟨_, piles, _⟩
      · exact absurd readable.2 beyond
      · rw [piles]
        exact ⟨_, rfl⟩

theorem readMemOld_unreadable (unreadable : ¬ Readable mem addr len) (target : Buffer) :
    ∃ fault, mem.readMemOld addr len target = .error fault := by
  rw [Readable] at unreadable
  rw [RevMem.readMemOld]
  cases located : mem.locate addr len with
  | error fault => exact ⟨fault, rfl⟩
  | ok result =>
    rcases result with ⟨extent, after⟩
    rw [located] at unreadable
    dsimp only at unreadable ⊢
    rcases copies_end after extent.physAddr 0 target extent.count with
      ⟨fault, head, _, _⟩ | ⟨head, _, first⟩
    · rw [head]
      exact ⟨fault, rfl⟩
    · rw [head]
      dsimp only
      rcases copies_end after extent.adjPhysAddr extent.count
          (spread after extent.physAddr 0 target extent.count) extent.span with
        ⟨fault, _, piles, _⟩ | ⟨_, _, second⟩
      · rw [piles]
        exact ⟨fault, rfl⟩
      · exact absurd ⟨first, second⟩ unreadable

end Readable

section Located
variable {mem after : RevMem} {vAddr addr len : Nat}

theorem calcPhysAddr_ok (sized : Sized mem) (coherent : Coherent mem) (cached : mem.tlbSize ≠ 0)
    {physAddr : Nat} (translated : mem.calcPhysAddr (vAddr / pageSize) vAddr = .ok (physAddr, after)) :
    Unseen mem after ∧ place after.pageMap pageSize vAddr = some physAddr := by
  by_cases valid : mem.isValidVirtAddr vAddr = true
  · have ⟨_, _, found, unseen, behind⟩ := calcPhysAddr_valid sized coherent cached valid
    cases found.symm.trans translated
    exact ⟨unseen, behind⟩
  · have searched := searchTLB_unseen coherent vAddr
    have result := searchTLB_result mem vAddr
    rw [RevMem.calcPhysAddr] at translated
    generalize outcome : mem.searchTLB vAddr = found at searched result translated
    rcases found with ⟨entry, first⟩
    have invalid : ¬ first.isValidVirtAddr vAddr = true := by
      rw [isValidVirtAddr_layout searched.layout]
      exact valid
    by_cases miss : entry = invalidAddr
    · simp [miss, invalid] at translated
    · simp only [miss, if_false, Except.ok.injEq, Prod.mk.injEq] at translated
      rcases translated with ⟨rfl, rfl⟩
      cases lookup : mem.tlb.lookup vAddr with
      | none =>
        rw [lookup] at result
        exact absurd result miss
      | some hit =>
        rw [lookup] at result
        rw [show entry = hit from result]
        exact ⟨searched, searched.place (coherent.cached vAddr hit lookup)⟩

/-- How an access that is located lies in physical memory. An access of more than a page goes on behind
the second page wherever that one lies. -/
structure Located (mem : RevMem) (addr len : Nat) (extent : RevMem.Extent) (after : RevMem) : Prop where
  unseen : Unseen mem after
  total : extent.count + extent.span = len
  count : extent.count = min len (pageRest addr)
  first : ∀ step < extent.count,
    place after.pageMap pageSize (addr + step) = some (extent.physAddr + step)
  second : len ≤ pageSize → ∀ step < extent.span,
    place after.pageMap pageSize (addr + extent.count + step) = some (extent.adjPhysAddr + step)

-- As in locate_split, with a translation that is known to have come out in place of a valid address.
theorem locate_ok (sized : Sized mem) (coherent : Coherent mem) (cached : mem.tlbSize ≠ 0)
    (bound : len < 2 ^ 32) {extent : RevMem.Extent}
    (located : mem.locate addr len = .ok (extent, after)) : Located mem addr len extent after := by
  simp only [RevMem.locate, page_shift] at located
  cases translated : mem.calcPhysAddr (addr / pageSize) addr with
  | error fault => simp [translated] at located
  | ok result =>
    rcases result with ⟨physAddr, first⟩
    obtain ⟨unseen, behind⟩ := calcPhysAddr_ok sized coherent cached translated
    obtain ⟨frame, owner, rfl⟩ := Option.map_eq_some_iff.mp behind
    have fits := frame_fits unseen.coherent owner
    have sizedFirst := sized.of_layout unseen.layout
    have base := pageBase_eq fits sizedFirst
    have small := sizedFirst.small
    have page := unseen.coherent.pages _ _ owner
    have lookup : first.frameOf (addr / pageSize) = (frame, first) := by
      simp [RevMem.frameOf, owner]
    simp only [translated, lookup, base] at located
    by_cases crossing : pageSize < addr % pageSize + len
    · have taken : (frame * pageSize + pageSize) % 2 ^ 32 <
          (frame * pageSize + addr % pageSize + len) % 2 ^ 64 := by
        simp only [pageSize] at fits crossing ⊢; omega
      have spanned : (frame * pageSize + addr % pageSize + len -
          (frame * pageSize + pageSize) % 2 ^ 32) % 2 ^ 32 = addr % pageSize + len - pageSize := by
        simp only [pageSize] at fits crossing ⊢; omega
      have adjusted : (addr + len + 2 ^ 64 - (addr % pageSize + len - pageSize)) % 2 ^ 64 =
          addr + (pageSize - addr % pageSize) := by
        simp only [pageSize] at fits crossing page ⊢; omega
      have adjPage : (addr + (pageSize - addr % pageSize)) / pageSize % 2 ^ 32 =
          (addr + (pageSize - addr % pageSize)) / pageSize := by
        simp only [pageSize] at page ⊢; omega
      have counted : (len + 2 ^ 64 - (addr % pageSize + len - pageSize)) % 2 ^ 64 =
          pageSize - addr % pageSize := by
        simp only [pageSize] at crossing ⊢; omega
      simp only [taken, if_true, spanned, adjusted, adjPage, counted] at located
      cases adjTranslated : first.calcPhysAddr ((addr + (pageSize - addr % pageSize)) / pageSize)
          (addr + (pageSize - addr % pageSize)) with
      | error fault => simp [adjTranslated] at located
      | ok result =>
        rcases result with ⟨adjPhysAddr, second⟩
        have room : first.tlbSize ≠ 0 := by rwa [(layout_fields unseen.layout).2]
        obtain ⟨adjUnseen, adjBehind⟩ := calcPhysAddr_ok sizedFirst unseen.coherent room adjTranslated
        simp only [adjTranslated, Except.ok.injEq, Prod.mk.injEq] at located
        rcases located with ⟨rfl, rfl⟩
        constructor
        · exact unseen.trans adjUnseen
        · simp only [pageSize] at crossing ⊢; omega
        · exact (Nat.min_eq_right (by simp only [pageSize] at crossing ⊢; omega)).symm
        · intro step inside
          exact adjUnseen.place (place_add behind (by dsimp only at inside; omega))
        · intro short step inside
          refine place_add adjBehind ?_
          simp only [pageSize] at inside short ⊢
          omega
    · have skipped : ¬ (frame * pageSize + pageSize) % 2 ^ 32 <
          (frame * pageSize + addr % pageSize + len) % 2 ^ 64 := by
        simp only [pageSize] at fits crossing ⊢; omega
      simp only [skipped, if_false, Except.ok.injEq, Prod.mk.injEq] at located
      rcases located with ⟨rfl, rfl⟩
      constructor
      · exact unseen
      · rfl
      · exact (Nat.min_eq_left (by simp only [pageRest, pageSize] at crossing ⊢; omega)).symm
      · intro step inside
        exact place_add behind (by dsimp only at inside; omega)
      · intro _ step inside
        exact absurd inside (Nat.not_lt_zero step)

theorem readMemOld_seen (sized : Sized mem) (coherent : Coherent mem) (cached : mem.tlbSize ≠ 0)
    (short : len ≤ pageSize) (readable : Readable mem addr len) (target : Buffer) :
    mem.readMemOld addr len target =
        .ok (loadOld (byteAt mem) addr len target, afterRead mem addr len) ∧
      Unseen mem (afterRead mem addr len) := by
  rw [Readable] at readable
  rw [afterRead]
  cases located : mem.locate addr len with
  | error fault =>
    rw [located] at readable
    exact readable.elim
  | ok result =>
    rcases result with ⟨extent, first⟩
    have lies := locate_ok sized coherent cached (short.trans_lt (by decide)) located
    have unseen := lies.unseen
    have split : extent.count = min len (pageSize - addr % pageSize) := lies.count
    have copied := copyOut_valid unseen.coherent 0 target lies.first
    have copiedLast := fun buffer =>
      copyLast_valid unseen.coherent extent.count buffer (lies.second short)
    have counted : Unseen first { first with memStats := { first.memStats with
        bytesRead := (first.memStats.bytesRead + len) % 2 ^ 32 } } :=
      .of_pageMap unseen.coherent rfl rfl rfl rfl unseen.coherent.cached
    have total := lies.total
    have head : (fun index => if 0 ≤ index ∧ index < 0 + extent.count then
        byteAt mem (addr + (index - 0)) else target index) =
          flatLoad (byteAt mem) addr extent.count target := by
      funext index
      simp [flatLoad]
    refine ⟨?_, unseen.trans counted⟩
    simp only [RevMem.readMemOld, located, copied, copiedLast, unseen.view, head, loadOld, ← split]
    by_cases whole : len = extent.count
    · rw [if_pos whole, if_pos (by omega)]
    · have last : addr + extent.count + (extent.span - 1) = addr + (len - 1) := by omega
      rw [if_neg whole, if_neg (by omega), last]

/-- The last byte that a read copies from behind the first page. -/
def lastByte (mem : RevMem) (addr len : Nat) : Byte :=
  match mem.locate addr len with
  | .error _ => 0
  | .ok (extent, after) => after.physMem (extent.adjPhysAddr + (extent.span - 1))

/-- The buffer after a read of any length: the bytes of the first page, then the last byte of all, then what
was in the buffer. -/
def leaves (mem : RevMem) (addr len : Nat) (target : Buffer) : Buffer := fun index =>
  if index < pageRest addr then byteAt mem (addr + index)
  else if index = pageRest addr then lastByte mem addr len
  else target index

theorem readMemOld_leaves (sized : Sized mem) (coherent : Coherent mem) (cached : mem.tlbSize ≠ 0)
    (bound : len < 2 ^ 32) (readable : Readable mem addr len) (target : Buffer) :
    ∃ data, mem.readMemOld addr len target = .ok (data, afterRead mem addr len) ∧
      (∀ index < len, data index = leaves mem addr len target index) ∧
      Unseen mem (afterRead mem addr len) := by
  have ⟨data, read⟩ := readMemOld_readable readable target
  refine ⟨data, read, ?_⟩
  rw [Readable] at readable
  rw [RevMem.readMemOld] at read
  rw [afterRead]
  cases located : mem.locate addr len with
  | error fault =>
    rw [located] at readable
    exact readable.elim
  | ok result =>
    rcases result with ⟨extent, first⟩
    have lies := locate_ok sized coherent cached bound located
    have copied := copyOut_valid lies.unseen.coherent 0 target lies.first
    have total := lies.total
    have count := lies.count
    rw [located] at read readable
    dsimp only at read readable
    rw [copied] at read
    dsimp only at read
    rcases copies_end first extent.adjPhysAddr extent.count
        (fun index => if 0 ≤ index ∧ index < 0 + extent.count then byteAt first (addr + (index - 0))
          else target index) extent.span with ⟨_, _, _, beyond⟩ | ⟨_, piles, _⟩
    · exact absurd readable.2 beyond
    · rw [piles] at read
      simp only [Except.ok.injEq, Prod.mk.injEq] at read
      rcases read with ⟨rfl, _⟩
      refine ⟨?_, lies.unseen.trans ?_⟩
      · intro index inside
        rw [piled, leaves, lastByte, located]
        dsimp only
        by_cases front : index < pageRest addr
        · have byte : (if 0 ≤ index ∧ index < 0 + extent.count then byteAt first (addr + (index - 0))
              else target index) = byteAt mem (addr + index) := by
            rw [if_pos (by omega), Nat.sub_zero, lies.unseen.view]
          rw [if_pos front]
          split
          · exact byte
          · rw [Function.update_of_ne (by omega)]
            exact byte
        · rw [if_neg front, if_neg (by omega)]
          by_cases edge : index = pageRest addr
          · have place : extent.count = index := by omega
            rw [if_pos edge, place, Function.update_self]
          · rw [if_neg edge, Function.update_of_ne (by omega), if_neg (by omega)]
      · exact .of_pageMap lies.unseen.coherent rfl rfl rfl rfl lies.unseen.coherent.cached

theorem usable_readable (usable : Usable mem addr len) : Readable mem addr len := by
  by_contra unreadable
  have ⟨_, read, _⟩ := readMemOld_valid usable fun _ => 0
  have ⟨_, faulted⟩ := readMemOld_unreadable unreadable fun _ => 0
  cases read.symm.trans faulted

end Located
end RevCPU.OldRead
