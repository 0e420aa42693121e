import RevCPU.FreeList
import RevCPU.RegFile
/-!
The mmap and munmap calls of RevProc.cc over the allocator of RevMem.cc. ECALL_mmap asks AllocMem for one
byte more than the guest does, while ECALL_munmap gives back as many as the guest says, so that a pair of
calls leaves a byte in use. ECALL_munmap stores the comparison of the result with -1, and so it answers a
failure with 1.
-/
namespace RevCPU.Mmap
open Mem Heap Regions Arcs FreeList RegFile

inductive CallFault where
  | heap (fault : HeapFault)
  | addSegment
  | munmap (addr size : BitVec 64)
deriving Repr, DecidableEq

/-- `RegFile->RV64[10] = value`. -/
def setA0 (regs : RevRegFile) (value : BitVec 64) : RevRegFile :=
  { regs with rv64 := Function.update regs.rv64 10 value }

@[simp] theorem setA0_same (regs : RevRegFile) (value : BitVec 64) : (setA0 regs value).rv64 10 = value := by
  simp [setA0]

/-- `RevProc::ECALL_mmap`. -/
def ecallMmap (regs : RevRegFile) (heap : HeapMem) : Except CallFault (RevRegFile × HeapMem) :=
  let addr := (regs.rv64 10).toNat
  let size := (regs.rv64 11).toNat
  if addr = 0 then
    match heap.allocMem ((size + 1) % 2 ^ 64) with
    | .error fault => .error (.heap fault)
    | .ok (addr, heap) => .ok (setA0 regs (BitVec.ofNat 64 addr), heap)
  else
    match heap.allocMemAt addr size with
    | .error fault => .error (.heap fault)
    | .ok (found, heap) =>
      if found = 0 then .error .addSegment else .ok (setA0 regs (regs.rv64 10), heap)

/-- `RevProc::ECALL_munmap`. -/
def ecallMunmap (regs : RevRegFile) (heap : HeapMem) : Except CallFault (RevRegFile × HeapMem) :=
  match heap.deallocMem (regs.rv64 10).toNat (regs.rv64 11).toNat with
  | .error fault => .error (.heap fault)
  | .ok (result, heap) =>
    -- A comparison is 0 or 1, so the test below never succeeds.
    let rc : Int := if result = 2 ^ 64 - 1 then 1 else 0
    if rc = -1 then .error (.munmap (regs.rv64 10) (regs.rv64 11))
    else .ok (setA0 regs (BitVec.ofInt 64 rc), heap)

/-- mmap(0, n), and munmap(a, n) at the address it returns. -/
def Inverse (heap : HeapMem) (n : BitVec 64) : Prop :=
  ∀ regs given after, regs.rv64 10 = 0 → regs.rv64 11 = n → ecallMmap regs heap = .ok (given, after) →
    (∀ cell ∈ (⟨(given.rv64 10).toNat, n.toNat⟩ : Arc (2 ^ 64)),
      after.mem.isValidVirtAddr cell = true) ∧
    ∀ again, again.rv64 10 = given.rv64 10 → again.rv64 11 = n →
      ∃ freed final, ecallMunmap again after = .ok (freed, final) ∧ freed.rv64 10 = 0 ∧
        (∀ cell, Allocated final cell ↔ Allocated heap cell) ∧
        ∀ cell, Free final cell ↔ Free heap cell

/-- munmap tells the guest that it failed, and changes nothing. -/
def Reports (regs : RevRegFile) (heap : HeapMem) : Prop :=
  (∃ fault, ecallMunmap regs heap = .error fault) ∨
    ∃ after, ecallMunmap regs heap = .ok (after, heap) ∧ after.rv64 10 = -1

/-- Fields as the constructor and the setters leave them, and a memory that has room in the address space. -/
structure Formed (heap : HeapMem) : Prop where
  made : ∀ seg ∈ heap.memSegs ++ heap.freeMemSegs, Made seg
  inside : heap.heapend < 2 ^ 64
  room : heap.mem.memSize < 2 ^ 64 - 1

/-- No address is in two of the segments in use and the free ones. -/
structure Usable (heap : HeapMem) : Prop extends Formed heap where
  apart : ((heap.memSegs ++ heap.freeMemSegs).map addrs).Pairwise Apart

theorem Formed.free_made {heap : HeapMem} (formed : Formed heap) : ∀ seg ∈ heap.freeMemSegs, Made seg :=
  fun seg member => formed.made seg (List.mem_append_right _ member)

section Usable
variable {heap : HeapMem} (usable : Usable heap)
include usable

theorem Usable.live_apart : (heap.memSegs.map addrs).Pairwise Apart := by
  have apart := usable.apart
  rw [List.map_append] at apart
  exact (List.pairwise_append.mp apart).1

theorem Usable.free_apart : (heap.freeMemSegs.map addrs).Pairwise Apart := by
  have apart := usable.apart
  rw [List.map_append] at apart
  exact (List.pairwise_append.mp apart).2.1

theorem Usable.not_both {cell : Nat} (inUse : Allocated heap cell) (free : Free heap cell) : False := by
  have apart := usable.apart
  rw [List.map_append] at apart
  exact covered_apart apart inUse free

end Usable

/-- Neither a free segment nor the heap behind the break has room for the bytes that mmap asks for. -/
def NoAddress (heap : HeapMem) (n : Nat) : Prop :=
  (∀ seg ∈ heap.freeMemSegs, seg.size < (n + 1) % 2 ^ 64) ∧
    heap.maxHeapSize < (heap.heapend + (n + 1) % 2 ^ 64) % 2 ^ 64

/-- The free list holds the bytes at the break, in segments too small for the search, and the byte behind
them is in use: mmap gives a byte away that is in use, and munmap puts bytes on the list that are there. -/
structure Overlooked (heap : HeapMem) (n : Nat) : Prop where
  small : ∀ seg ∈ heap.freeMemSegs, seg.size < (n + 1) % 2 ^ 64
  fits : heap.heapend + n + 1 < 2 ^ 64
  free : ∀ cell, heap.heapend ≤ cell → cell < heap.heapend + n → Free heap cell
  starts : ∀ seg ∈ heap.freeMemSegs, seg.contains heap.heapend = true → seg.baseAddr = heap.heapend
  used : Allocated heap (heap.heapend + n)
  unused : ∀ seg ∈ heap.memSegs, seg.baseAddr ≠ heap.heapend

def place (heap : HeapMem) (size : Nat) : Nat :=
  match heap.freeMemSegs.find? fun seg => decide (size ≤ seg.size) with
  | some seg => seg.baseAddr
  | none => heap.heapend

section Calls
variable {heap after : HeapMem} {size base : Nat}

theorem takeFree_none {free : List MemSegment} :
    HeapMem.takeFree size free = none ↔ ∀ seg ∈ free, seg.size < size := by
  rw [HeapMem.takeFree, Option.map_eq_none_iff, replaceFirst_eq_none, List.find?_eq_none]
  simp only [decide_eq_true_eq, Nat.not_le]

theorem takeFree_place {left : List MemSegment}
    (taken : HeapMem.takeFree size heap.freeMemSegs = some (base, left)) : base = place heap size := by
  rw [HeapMem.takeFree] at taken
  obtain ⟨_, replaced, same⟩ := Option.map_eq_some_iff.mp taken
  cases same
  rw [place, (replaceFirst_eq_some replaced).1]

theorem place_none (small : ∀ seg ∈ heap.freeMemSegs, seg.size < size) :
    place heap size = heap.heapend := by
  have absent : (heap.freeMemSegs.find? fun seg => decide (size ≤ seg.size)) = none := by
    simpa only [List.find?_eq_none, decide_eq_true_eq, Nat.not_le] using small
  rw [place, absent]

theorem expandHeap_refused (heap : HeapMem) (size : Nat) :
    (∃ fault, heap.expandHeap size = .error fault) ↔
      heap.maxHeapSize < (heap.heapend + size) % 2 ^ 64 := by
  constructor
  · rintro ⟨fault, refused⟩
    simp only [HeapMem.expandHeap] at refused
    split at refused
    · assumption
    · cases refused
  · exact fun full => ⟨_, if_pos full⟩

theorem allocMem_refused : (∃ fault, heap.allocMem size = .error fault) ↔
    (∀ seg ∈ heap.freeMemSegs, seg.size < size) ∧
      heap.maxHeapSize < (heap.heapend + size) % 2 ^ 64 := by
  rw [← takeFree_none, HeapMem.allocMem]
  cases taken : HeapMem.takeFree size heap.freeMemSegs with
  | some found => simp
  | none =>
    have limit : _ ↔ heap.maxHeapSize < (heap.heapend + size) % 2 ^ 64 :=
      expandHeap_refused (heap.setMemSegs (heap.memSegs ++ [MemSegment.make heap.heapend size])) size
    cases grown : (heap.setMemSegs (heap.memSegs ++ [MemSegment.make heap.heapend size])).expandHeap size with
    | error fault =>
      rw [grown] at limit
      simpa [grown] using limit
    | ok more =>
      rw [grown] at limit
      simpa [grown] using limit

structure Given (heap after : HeapMem) (size base : Nat) : Prop where
  place : base = place heap size
  live : after.memSegs = heap.memSegs ++ [MemSegment.make base size]
  room : after.mem.memSize = heap.mem.memSize
  free : HeapMem.takeFree size heap.freeMemSegs = some (base, after.freeMemSegs) ∨
    (∀ seg ∈ heap.freeMemSegs, seg.size < size) ∧ base = heap.heapend ∧
      after.freeMemSegs = heap.freeMemSegs ∧ after.heapend = (heap.heapend + size) % 2 ^ 64

theorem allocMem_given (called : heap.allocMem size = .ok (base, after)) : Given heap after size base := by
  rw [HeapMem.allocMem] at called
  cases taken : HeapMem.takeFree size heap.freeMemSegs with
  | some found =>
    rw [taken] at called
    cases called
    exact ⟨takeFree_place taken, rfl, rfl, .inl taken⟩
  | none =>
    rw [taken] at called
    have small := takeFree_none.mp taken
    cases grown : (heap.setMemSegs (heap.memSegs ++ [MemSegment.make heap.heapend size])).expandHeap size with
    | error fault =>
      simp only [grown] at called
      cases called
    | ok more =>
      simp only [grown] at called
      cases called
      rw [expandHeap_ok grown]
      exact ⟨(place_none small).symm, rfl, rfl, .inr ⟨small, rfl, rfl, rfl⟩⟩

theorem valid_cases {mem : RevMem} {cell : Nat} (valid : mem.isValidVirtAddr cell = true) :
    (∃ seg ∈ mem.memSegs, seg.contains cell = true) ∨ cell < mem.memSize ∨ cell ≤ mem.heapend := by
  rw [RevMem.isValidVirtAddr] at valid
  split at valid
  · rename_i inUse
    exact .inl (List.any_eq_true.mp inUse)
  · split at valid
    · exact .inr (.inl (of_decide_eq_true valid))
    · rw [Bool.and_eq_true] at valid
      exact .inr (.inr (of_decide_eq_true valid.2))

theorem valid_of_mem {mem : RevMem} {seg : MemSegment} {cell : Nat} (member : seg ∈ mem.memSegs)
    (holds : seg.contains cell = true) : mem.isValidVirtAddr cell = true := by
  have inUse : (mem.memSegs.any fun seg => seg.contains cell) = true :=
    List.any_eq_true.mpr ⟨seg, member, holds⟩
  rw [RevMem.isValidVirtAddr, if_pos inUse]

end Calls
section Release
variable {live left : List MemSegment} {base size n : Nat}

theorem release_absent (absent : ∀ seg ∈ live, seg.baseAddr ≠ base) :
    HeapMem.release base size live = .ok none := by
  apply release_none
  simpa only [List.find?_eq_none, decide_eq_true_eq] using absent

theorem absent_of_release (released : HeapMem.release base size live = .ok none) :
    ∀ seg ∈ live, seg.baseAddr ≠ base := by
  cases found : live.find? fun seg => decide (seg.baseAddr = base) with
  | none => simpa only [List.find?_eq_none, decide_eq_true_eq] using found
  | some seg =>
    have ⟨_, front, back, _, result⟩ := release_some size found
    rw [result] at released
    split at released
    · cases released
    · cases released

theorem release_made : HeapMem.release base n [MemSegment.make base size] =
    if size < n then .error (.beyondSegment base n)
    else .ok (some (remains n (MemSegment.make base size))) := by
  have starts : decide ((MemSegment.make base size).baseAddr = base) = true := decide_eq_true rfl
  rw [HeapMem.release, replaceFirst, if_pos starts, List.append_nil]
  rfl

/-- After a call of mmap, munmap finds the new segment, or one in use before that starts there too. -/
theorem release_added
    (released : HeapMem.release base n (live ++ [MemSegment.make base size]) = .ok (some left)) :
    (∀ seg ∈ live, seg.baseAddr ≠ base) ∧ n ≤ size ∧
        left = live ++ remains n (MemSegment.make base size) ∨
      ∃ seg front back, seg.baseAddr = base ∧ n ≤ seg.size ∧ live = front ++ seg :: back ∧
        left = front ++ remains n seg ++ back ++ [MemSegment.make base size] := by
  rw [release_append] at released
  cases before : HeapMem.release base n live with
  | error fault =>
    rw [before] at released
    cases released
  | ok found =>
    rw [before] at released
    cases found with
    | none =>
      have last : (HeapMem.release base n [MemSegment.make base size]).map (Option.map (live ++ ·)) =
          .ok (some left) := released
      rw [release_made] at last
      split at last
      · cases last
      · rename_i enough
        cases last
        exact .inl ⟨absent_of_release before, Nat.le_of_not_lt enough, rfl⟩
    | some rest =>
      cases released
      have ⟨seg, front, back, starts, inside, split, result⟩ := release_cases before
      rw [result]
      exact .inr ⟨seg, front, back, starts, inside, split, rfl⟩

end Release
section Bytes
variable {live free left : List MemSegment} {base n : Nat}

theorem addrs_last :
    (remains n (MemSegment.make base (n + 1))).map addrs = [⟨(base + n) % 2 ^ 64, 1⟩] := by
  have more : n < (MemSegment.make base (n + 1)).size := Nat.lt_succ_self n
  have one : (MemSegment.make base (n + 1)).size - n = 1 := Nat.add_sub_cancel_left n 1
  rw [remains, if_pos more, one]
  rfl

theorem last_kept (inside : base < 2 ^ 64) (short : n + 1 < 2 ^ 64)
    (released : HeapMem.release base n (live ++ [MemSegment.make base (n + 1)]) = .ok (some left)) :
    Covered (left.map addrs) ((base + n) % 2 ^ 64) := by
  rcases release_added released with ⟨_, _, result⟩ | ⟨seg, front, back, _, _, _, result⟩
  · rw [result, List.map_append, covered_append, addrs_last]
    exact .inr (covered_singleton.mpr (mem_base (Nat.mod_lt _ (by decide)) Nat.one_pos))
  · rw [result, List.map_append, covered_append]
    exact .inr (covered_singleton.mpr (mem_behind inside (Nat.lt_of_succ_lt short)))

/-- Where the bytes came from the free list, the last one is missing from it afterwards. -/
theorem last_lost (made : ∀ seg ∈ free, Made seg) (apart : (free.map addrs).Pairwise Apart)
    (short : n + 1 < 2 ^ 64) (taken : HeapMem.takeFree (n + 1) free = some (base, left)) :
    Covered (free.map addrs) ((base + n) % 2 ^ 64) ∧
      ¬ Covered ((joinFree base n left).map addrs) ((base + n) % 2 ^ 64) := by
  have ⟨seg, front, back, starts, enough, split, rest⟩ := takeFree_cases taken
  subst starts
  have old : free.Perm ([seg] ++ (front ++ back)) := by
    rw [split]
    exact List.perm_middle
  have new : (left ++ [MemSegment.make seg.baseAddr (n + 1)]).Perm
      (MemSegment.make seg.baseAddr (n + 1) :: remains (n + 1) seg ++ (front ++ back)) := by
    rw [rest, List.perm_iff_count]
    intro one
    simp only [List.count_append, List.count_cons, List.count_nil]
    omega
  have ⟨made', apart', same⟩ := cut_front made apart enough old new
  have inside := (made seg (old.mem_iff.mpr List.mem_cons_self)).base
  have last := mem_behind inside (Nat.lt_of_succ_lt short)
  have ⟨leftApart, _, cross⟩ := List.pairwise_append.mp (List.map_append ▸ apart')
  have away : ∀ other ∈ left.map addrs, ∀ cell ∈ other,
      cell ∉ (⟨seg.baseAddr, n + 1⟩ : Arc (2 ^ 64)) :=
    fun other member => cross other member _ (List.mem_singleton_self _)
  have absent : ¬ Covered (left.map addrs) ((seg.baseAddr + n) % 2 ^ 64) := by
    rintro ⟨other, member, held⟩
    exact away other member _ held last
  have outside := behind_not_mem inside (Nat.lt_of_succ_lt short)
  refine ⟨(same _).mp ((covered_range _).mpr (.inr last)), ?_⟩
  have without : ¬ Covered ((left ++ [MemSegment.make seg.baseAddr n]).map addrs)
      ((seg.baseAddr + n) % 2 ^ 64) := by
    rw [covered_range]
    exact not_or.mpr ⟨absent, outside⟩
  have formed : ∀ other ∈ [] ++ (left ++ [MemSegment.make seg.baseAddr n]), Made other := by
    intro other member
    rw [List.nil_append] at member
    rcases List.mem_append.mp member with before | range
    · exact made' other (List.mem_append_left _ before)
    · rw [List.mem_singleton.mp range]
      exact make_made inside (by omega)
  have clear : ((left ++ [MemSegment.make seg.baseAddr n]).map addrs).Pairwise Apart := by
    rw [List.map_append, List.pairwise_append]
    refine ⟨leftApart, List.pairwise_singleton _ _, ?_⟩
    intro other member range present cell held inRange
    rw [List.mem_singleton.mp present] at inRange
    exact away other member cell held (mem_longer inRange)
  have ⟨_, _, joined⟩ := refund inside formed clear ⟨_, Nat.mod_lt _ (by decide), without⟩
  rw [joined]
  exact not_or.mpr ⟨absent, outside⟩

/-- A free segment that goes on behind the break grows at its end, and not at the break. -/
theorem straddled {seg : MemSegment} {front back : List MemSegment}
    (made : ∀ other ∈ front ++ seg :: back, Made other)
    (apart : ((front ++ seg :: back).map addrs).Pairwise Apart) (short : n < 2 ^ 64)
    (absent : ¬ Covered ((front ++ seg :: back).map addrs) ((base + n) % 2 ^ 64))
    (inside : seg.contains base = true)
    (same : ∀ cell, Covered ((front ++ [seg.setSize ((seg.size + n) % 2 ^ 64)] ++ back).map addrs) cell ↔
      Covered ((front ++ seg :: back).map addrs) cell) : False := by
  have held := made seg (List.mem_append_right _ List.mem_cons_self)
  have ⟨straight, low, high⟩ := mem_of_contains held inside
  simp only [List.map_append, List.map_cons, List.map_nil, covered_append, covered_cons, not_covered_nil,
    or_false] at same absent
  by_cases fits : seg.size + n < 2 ^ 64
  · -- The bytes added reach the one that is not free.
    have reached : (base + n) % 2 ^ 64 ∈ (⟨seg.baseAddr, seg.size + n⟩ : Arc (2 ^ 64)) := by
      rw [mem_arc, next_base (by omega) (by omega), distance]
      split
      · split
        · omega
        · omega
      · split
        · omega
        · omega
    rw [Nat.mod_eq_of_lt fits] at same
    exact absent ((same _).mp (.inl (.inr reached)))
  · -- The size wraps, and the last byte of the segment is lost.
    have last : seg.baseAddr + seg.size - 1 ∈ addrs seg := by
      rw [addrs, mem_interval (Nat.le_of_lt straight)]
      omega
    have clear : ([addrs seg] ++ (front ++ back).map addrs).Pairwise Apart := by
      rw [List.map_append, List.map_cons] at apart
      rw [List.map_append]
      have moved : (front.map addrs ++ addrs seg :: back.map addrs).Perm
          ([addrs seg] ++ (front.map addrs ++ back.map addrs)) := List.perm_middle
      exact (pairwise_perm moved).mp apart
    have elsewhere : ∀ cell, cell ∈ addrs seg → Covered ((front ++ back).map addrs) cell → False :=
      fun cell here => covered_apart clear (covered_singleton.mpr here)
    rcases (same _).mpr (.inr (.inl last)) with (before | grown) | behind
    · refine elsewhere _ last ?_
      rw [List.map_append, covered_append]
      exact .inl before
    · have size : (seg.size + n) % 2 ^ 64 = seg.size + n - 2 ^ 64 := by
        have small := held.size
        omega
      have ends : seg.baseAddr + (seg.size + n - 2 ^ 64) ≤ 2 ^ 64 := by omega
      have within : _ ∈ (⟨seg.baseAddr, (seg.size + n) % 2 ^ 64⟩ : Arc (2 ^ 64)) := grown
      rw [size, mem_interval ends] at within
      omega
    · refine elsewhere _ last ?_
      rw [List.map_append, covered_append]
      exact .inr behind

theorem contains_before {seg : MemSegment} (inside : base < 2 ^ 64) (holds : seg.contains base = true)
    (other : seg.baseAddr ≠ base) : seg.contains ((base + 2 ^ 64 - 1) % 2 ^ 64) = true := by
  rw [MemSegment.contains, Bool.and_eq_true, decide_eq_true_iff, decide_eq_true_iff] at holds ⊢
  omega

theorem not_start_of_before {seg : MemSegment} (made : Made seg)
    (before : seg.contains ((base + 2 ^ 64 - 1) % 2 ^ 64) = true) : seg.baseAddr ≠ base := by
  have ⟨straight, low, high⟩ := mem_of_contains made before
  omega

/-- Where no free segment goes on behind the break, the range joins the list whole. -/
theorem merged_joined (made : ∀ seg ∈ free, Made seg) (inside : base < 2 ^ 64) (short : n + 1 < 2 ^ 64)
    (absent : ¬ Covered (free.map addrs) ((base + n) % 2 ^ 64))
    (starts : ∀ seg ∈ free, seg.contains base = true → seg.baseAddr = base) (cell : Nat) :
    Covered ((joinFree base n free).map addrs) cell ↔
      Covered (free.map addrs) cell ∨ cell ∈ (⟨base, n⟩ : Arc (2 ^ 64)) := by
  rcases joinFree_cases base n free with ⟨_, added⟩ | ⟨seg, front, back, holds, split, grown⟩
  · rw [added]
    exact covered_range cell
  · have member : seg ∈ free := split ▸ List.mem_append_right _ List.mem_cons_self
    have held := made seg member
    obtain ⟨straight, _⟩ := mem_of_contains held holds
    have outside : base ∉ addrs seg := by
      intro here
      rw [addrs, mem_interval (Nat.le_of_lt straight)] at here
      refine not_start_of_before held holds (starts seg member ?_)
      rw [MemSegment.contains, held.top, Nat.mod_eq_of_lt straight]
      simpa using here
    have alone : (base + n) % 2 ^ 64 ∉ addrs seg :=
      fun here => absent ⟨_, List.mem_map_of_mem member, here⟩
    obtain ⟨fits, merged⟩ := merged_end held inside holds (fun _ => outside)
      ⟨_, Nat.mod_lt _ (by decide), alone, behind_not_mem inside (Nat.lt_of_succ_lt short)⟩
    rw [grown, split]
    exact merged_covered fits merged cell

/-- Where the break is given away, the free list is the same afterwards just where it held the range before
and no free segment goes on behind the break. -/
theorem merged_same_iff (made : ∀ seg ∈ free, Made seg) (apart : (free.map addrs).Pairwise Apart)
    (inside : base < 2 ^ 64) (short : n + 1 < 2 ^ 64)
    (absent : ¬ Covered (free.map addrs) ((base + n) % 2 ^ 64)) :
    (∀ cell, Covered ((joinFree base n free).map addrs) cell ↔
      Covered (free.map addrs) cell) ↔
    (∀ seg ∈ free, seg.contains base = true → seg.baseAddr = base) ∧
      ∀ cell ∈ (⟨base, n⟩ : Arc (2 ^ 64)), Covered (free.map addrs) cell := by
  constructor
  · intro same
    have starts : ∀ seg ∈ free, seg.contains base = true → seg.baseAddr = base := by
      intro seg member holds
      by_contra other
      have before := contains_before inside holds other
      rcases joinFree_cases base n free with ⟨none, _⟩ | ⟨first, front, back, holds', split, grown⟩
      · exact none seg member before
      · rw [grown] at same
        subst split
        -- The segment found holds the address before the break too, so it is this one.
        have moved : (front ++ first :: back).Perm (first :: (front ++ back)) := List.perm_middle
        have here : seg = first := by
          rcases List.mem_cons.mp (moved.mem_iff.mp member) with this | rest
          · exact this
          · have clear := apart_of_perm apart (moved.map addrs) _ (List.mem_map_of_mem rest)
            have held := made first (moved.mem_iff.mpr List.mem_cons_self)
            have both := addrs_of_contains (made seg member) before
            exact absurd both (clear _ (addrs_of_contains held holds'))
        rw [here] at holds
        exact straddled made apart (by omega) absent holds same
    exact ⟨starts, fun cell member => (same cell).mp
      ((merged_joined made inside short absent starts cell).mpr (.inr member))⟩
  · rintro ⟨starts, all⟩ cell
    rw [merged_joined made inside short absent starts cell]
    exact or_iff_left_of_imp (all cell)

end Bytes
section Ecalls
variable {heap after final : HeapMem} {regs given freed : RevRegFile} {n : BitVec 64}

theorem mmap_null (null : regs.rv64 10 = 0) (count : regs.rv64 11 = n) : ecallMmap regs heap =
    match heap.allocMem ((n.toNat + 1) % 2 ^ 64) with
    | .error fault => .error (.heap fault)
    | .ok (base, heap) => .ok (setA0 regs (BitVec.ofNat 64 base), heap) := by
  rw [ecallMmap, null, count]
  exact if_pos rfl

theorem mmap_given (null : regs.rv64 10 = 0) (count : regs.rv64 11 = n)
    (called : ecallMmap regs heap = .ok (given, after)) :
    ∃ base, heap.allocMem ((n.toNat + 1) % 2 ^ 64) = .ok (base, after) ∧
      given.rv64 10 = BitVec.ofNat 64 base := by
  rw [mmap_null null count] at called
  cases taken : heap.allocMem ((n.toNat + 1) % 2 ^ 64) with
  | error fault =>
    rw [taken] at called
    cases called
  | ok found =>
    rw [taken] at called
    cases called
    exact ⟨found.1, rfl, setA0_same regs _⟩

theorem munmap_ok {result : Nat}
    (done : heap.deallocMem (regs.rv64 10).toNat (regs.rv64 11).toNat = .ok (result, after)) :
    ecallMunmap regs heap = .ok (setA0 regs (if result = 2 ^ 64 - 1 then 1 else 0), after) := by
  rw [ecallMunmap, done]
  by_cases failed : result = 2 ^ 64 - 1
  · rw [if_pos failed]
    simp only [if_pos failed]
    rfl
  · rw [if_neg failed]
    simp only [if_neg failed]
    rfl

theorem munmap_absent (absent : ∀ seg ∈ heap.memSegs, seg.baseAddr ≠ (regs.rv64 10).toNat) :
    ecallMunmap regs heap = .ok (setA0 regs 1, heap) := by
  have done : heap.deallocMem (regs.rv64 10).toNat (regs.rv64 11).toNat = .ok (2 ^ 64 - 1, heap) := by
    rw [HeapMem.deallocMem, release_absent absent]
  rw [munmap_ok done, if_pos rfl]

theorem not_reports (answered : ecallMunmap regs heap = .ok (setA0 regs 1, heap)) : ¬ Reports regs heap := by
  rintro (⟨fault, failed⟩ | ⟨after, done, told⟩)
  · rw [answered] at failed
    cases failed
  · rw [answered] at done
    cases done
    rw [setA0_same] at told
    exact absurd told (by decide)

theorem munmap_found {segs : List MemSegment}
    (released : HeapMem.release (regs.rv64 10).toNat (regs.rv64 11).toNat heap.memSegs = .ok (some segs)) :
    ecallMunmap regs heap = .ok (setA0 regs 0, { heap.setMemSegs segs with
      freeMemSegs := joinFree (regs.rv64 10).toNat (regs.rv64 11).toNat heap.freeMemSegs }) := by
  have done : heap.deallocMem (regs.rv64 10).toNat (regs.rv64 11).toNat = .ok (0, { heap.setMemSegs segs with
      freeMemSegs := joinFree (regs.rv64 10).toNat (regs.rv64 11).toNat heap.freeMemSegs }) := by
    rw [HeapMem.deallocMem, released]
    rfl
  rw [munmap_ok done, if_neg (by decide)]

theorem munmap_freed (called : ecallMunmap regs heap = .ok (freed, final)) (zero : freed.rv64 10 = 0) :
    HeapMem.release (regs.rv64 10).toNat (regs.rv64 11).toNat heap.memSegs = .ok (some final.memSegs) ∧
      final.freeMemSegs = joinFree (regs.rv64 10).toNat (regs.rv64 11).toNat heap.freeMemSegs := by
  cases released : HeapMem.release (regs.rv64 10).toNat (regs.rv64 11).toNat heap.memSegs with
  | error fault =>
    rw [ecallMunmap, HeapMem.deallocMem, released] at called
    cases called
  | ok found =>
    cases found with
    | none =>
      rw [munmap_absent (absent_of_release released)] at called
      cases called
      rw [setA0_same] at zero
      cases zero
    | some segs =>
      rw [munmap_found released] at called
      cases called
      exact ⟨rfl, rfl⟩

def argRegs (addr size : BitVec 64) : RevRegFile :=
  { (default : RevRegFile) with rv64 := fun index => if index = 10 then addr else size }

theorem place_inside (formed : Formed heap) (size : Nat) : place heap size < 2 ^ 64 := by
  rw [place]
  split
  · rename_i seg found
    exact (formed.made seg (List.mem_append_right _ (List.mem_of_find?_eq_some found))).base
  · exact formed.inside

theorem inverse_parts {base : Nat} (formed : Formed heap) (inverse : Inverse heap n)
    (taken : heap.allocMem ((n.toNat + 1) % 2 ^ 64) = .ok (base, after)) :
    (∀ cell ∈ (⟨base, n.toNat⟩ : Arc (2 ^ 64)), after.mem.isValidVirtAddr cell = true) ∧
      ∃ left, HeapMem.release base n.toNat after.memSegs = .ok (some left) ∧
        (∀ cell, Covered (left.map addrs) cell ↔ Allocated heap cell) ∧
        ∀ cell, Covered ((joinFree base n.toNat after.freeMemSegs).map addrs) cell ↔ Free heap cell := by
  have inside : base < 2 ^ 64 := (allocMem_given taken).place ▸ place_inside formed _
  have called : ecallMmap (argRegs 0 n) heap = .ok (setA0 (argRegs 0 n) (BitVec.ofNat 64 base), after) := by
    rw [mmap_null (n := n) rfl rfl, taken]
  have back : (BitVec.ofNat 64 base).toNat = base := by
    rw [BitVec.toNat_ofNat, Nat.mod_eq_of_lt inside]
  have ⟨valid, undone⟩ := inverse (argRegs 0 n) _ after rfl rfl called
  have ⟨freed, final, calledBack, zero, live, free⟩ := undone (argRegs (BitVec.ofNat 64 base) n)
    (setA0_same _ _).symm rfl
  have ⟨released, merged⟩ := munmap_freed calledBack zero
  have addr : ((argRegs (BitVec.ofNat 64 base) n).rv64 10).toNat = base := back
  have count : ((argRegs (BitVec.ofNat 64 base) n).rv64 11).toNat = n.toNat := rfl
  rw [addr, count] at released merged
  rw [setA0_same, back] at valid
  refine ⟨valid, final.memSegs, released, live, fun cell => ?_⟩
  rw [← merged]
  exact free cell

/-- In whatever state, a pair of calls is inverse only where mmap gives a byte away that is in use. -/
theorem last_used {base : Nat} (formed : Formed heap) (inverse : Inverse heap n)
    (short : n.toNat + 1 < 2 ^ 64)
    (taken : heap.allocMem ((n.toNat + 1) % 2 ^ 64) = .ok (base, after)) :
    Allocated heap ((base + n.toNat) % 2 ^ 64) := by
  have ⟨_, left, released, live, _⟩ := inverse_parts formed inverse taken
  have given := allocMem_given taken
  rw [given.live, Nat.mod_eq_of_lt short] at released
  rw [← live]
  exact last_kept (given.place ▸ place_inside formed _) short released

/-- A length of 2^64 - 1 asks for no byte at all, and munmap then gives a segment away that was there. -/
theorem wrapped_loses {base : Nat} (usable : Usable heap) (inverse : Inverse heap n)
    (whole : n.toNat + 1 = 2 ^ 64)
    (taken : heap.allocMem ((n.toNat + 1) % 2 ^ 64) = .ok (base, after)) : False := by
  have ⟨_, left, released, live, _⟩ := inverse_parts usable.toFormed inverse taken
  have given := allocMem_given taken
  have inside : base < 2 ^ 64 := given.place ▸ place_inside usable.toFormed _
  have zero : (n.toNat + 1) % 2 ^ 64 = 0 := by rw [whole, Nat.mod_self]
  rw [given.live, zero] at released
  rcases release_added released with
    ⟨_, nothing, _⟩ | ⟨seg, front, back, starts, enough, split, result⟩
  · omega
  · subst starts
    have moved : heap.memSegs.Perm (seg :: (front ++ back)) := split ▸ List.perm_middle
    have held := usable.made seg (List.mem_append_left _ (moved.mem_iff.mpr List.mem_cons_self))
    have short := held.size
    have start : seg.baseAddr ∈ addrs seg := mem_base inside (by omega)
    have before : Allocated heap seg.baseAddr :=
      ⟨_, List.mem_map_of_mem (moved.mem_iff.mpr List.mem_cons_self), start⟩
    have none : remains n.toNat seg = [] := if_neg (by omega)
    have clear := apart_of_perm usable.live_apart (moved.map addrs)
    have still := (live _).mpr before
    rw [result, none, List.append_nil, covered_range] at still
    rcases still with ⟨other, present, holds⟩ | empty
    · exact clear other present _ start holds
    · exact not_mem_empty empty

/-- A range at the break that comes around the end of the address space is not valid as a whole. -/
theorem fits_of_valid {count : Nat} (usable : Usable heap) (positive : 0 < count) (short : count + 1 < 2 ^ 64)
    (given : Given heap after ((count + 1) % 2 ^ 64) heap.heapend)
    (moved : after.heapend = (heap.heapend + (count + 1) % 2 ^ 64) % 2 ^ 64)
    (all : ∀ cell ∈ (⟨heap.heapend, count⟩ : Arc (2 ^ 64)), Free heap cell)
    (valid : ∀ cell ∈ (⟨heap.heapend, count⟩ : Arc (2 ^ 64)), after.mem.isValidVirtAddr cell = true) :
    heap.heapend + count + 1 < 2 ^ 64 := by
  by_contra around
  have inside := usable.inside
  have limit := usable.room
  -- The last byte of the range before the end of the address space.
  obtain ⟨cell, low, high, within⟩ : ∃ cell, 2 ^ 64 - 2 ≤ cell ∧ cell < 2 ^ 64 ∧
      heap.heapend ≤ cell ∧ cell < heap.heapend + count := by
    by_cases whole : heap.heapend + count ≤ 2 ^ 64
    · exact ⟨heap.heapend + count - 1, by omega⟩
    · exact ⟨2 ^ 64 - 1, by omega⟩
  have member : cell ∈ (⟨heap.heapend, count⟩ : Arc (2 ^ 64)) := by
    rw [mem_arc, distance, if_pos within.1]
    omega
  rw [Nat.mod_eq_of_lt short] at given moved
  rcases valid_cases (valid cell member) with ⟨seg, present, holds⟩ | stack | break'
  · have live : seg ∈ heap.memSegs ++ [MemSegment.make heap.heapend (count + 1)] := given.live ▸ present
    rcases List.mem_append.mp live with before | new
    · have made := usable.made seg (List.mem_append_left _ before)
      have inUse : Allocated heap cell := ⟨_, List.mem_map_of_mem before, addrs_of_contains made holds⟩
      exact usable.not_both inUse (all cell member)
    · rw [List.mem_singleton.mp new] at holds
      obtain ⟨straight, _⟩ := mem_of_contains (make_made inside short) holds
      have fits : heap.heapend + (count + 1) < 2 ^ 64 := straight
      omega
  · rw [given.room] at stack
    omega
  · have last : cell ≤ after.heapend := break'
    omega

/-- mmap at the break leaves the state as it was only where the free list overlooks the range. -/
theorem break_overlooked {base : Nat} (usable : Usable heap) (inverse : Inverse heap n)
    (positive : 0 < n.toNat) (short : n.toNat + 1 < 2 ^ 64)
    (taken : heap.allocMem ((n.toNat + 1) % 2 ^ 64) = .ok (base, after)) :
    Overlooked heap n.toNat := by
  have ⟨valid, left, released, live, free⟩ := inverse_parts usable.toFormed inverse taken
  have used := last_used usable.toFormed inverse short taken
  have given := allocMem_given taken
  have size := Nat.mod_eq_of_lt short
  have absent : ¬ Free heap ((base + n.toNat) % 2 ^ 64) := usable.not_both used
  have made := usable.free_made
  rcases given.free with found | ⟨small, atBreak, same, moved⟩
  · rw [size] at found
    exact absurd (last_lost made usable.free_apart short found).1 absent
  · subst atBreak
    rw [same] at free
    have ⟨starts, all⟩ := (merged_same_iff made usable.free_apart usable.inside short absent).mp free
    have first : Free heap heap.heapend := all _ (mem_base usable.inside positive)
    have unused : ∀ seg ∈ heap.memSegs, seg.baseAddr ≠ heap.heapend := by
      rw [given.live] at released
      rcases release_added released with ⟨none, _⟩ | ⟨seg, front, back, at', enough, split, _⟩
      · exact none
      · have member : seg ∈ heap.memSegs := split ▸ List.mem_append_right _ List.mem_cons_self
        have inUse : heap.heapend ∈ addrs seg := at' ▸ mem_base (at' ▸ usable.inside) (by omega)
        exact absurd first (usable.not_both ⟨_, List.mem_map_of_mem member, inUse⟩)
    have fits : heap.heapend + n.toNat + 1 < 2 ^ 64 :=
      fits_of_valid usable positive short given moved all valid
    have below : (heap.heapend + n.toNat) % 2 ^ 64 = heap.heapend + n.toNat := Nat.mod_eq_of_lt (by omega)
    rw [below] at used
    refine ⟨small, fits, fun cell low high => all cell ?_, starts, used, unused⟩
    exact (mem_interval (by omega)).mpr ⟨low, high⟩

/-- There it does: the list and the segments in use hold the same addresses as before. -/
theorem overlooked_inverse (usable : Usable heap) (overlooked : Overlooked heap n.toNat) :
    Inverse heap n := by
  intro regs given after null count called
  have fits := overlooked.fits
  have short : n.toNat + 1 < 2 ^ 64 := by omega
  have size := Nat.mod_eq_of_lt short
  have ⟨base, taken, result⟩ := mmap_given null count called
  have made := usable.free_made
  have facts := allocMem_given taken
  have atBreak : base = heap.heapend := facts.place.trans (place_none overlooked.small)
  subst atBreak
  have back : (given.rv64 10).toNat = heap.heapend := by
    rw [result, BitVec.toNat_ofNat, Nat.mod_eq_of_lt usable.inside]
  have straight : heap.heapend + n.toNat ≤ 2 ^ 64 := by omega
  have below : (heap.heapend + n.toNat) % 2 ^ 64 = heap.heapend + n.toNat := Nat.mod_eq_of_lt (by omega)
  have free : after.freeMemSegs = heap.freeMemSegs := by
    rcases facts.free with found | ⟨_, _, same, _⟩
    · have nothing := takeFree_none.mpr overlooked.small
      rw [found] at nothing
      cases nothing
    · exact same
  rw [back]
  refine ⟨fun cell member => ?_, fun again addr count' => ?_⟩
  · have within := (mem_interval straight).mp member
    have here : MemSegment.make heap.heapend ((n.toNat + 1) % 2 ^ 64) ∈ after.memSegs := by
      rw [facts.live]
      exact List.mem_append_right _ (List.mem_singleton_self _)
    apply valid_of_mem here
    have whole : heap.heapend + (n.toNat + 1) < 2 ^ 64 := by omega
    have inSeg : cell ∈ MemSegment.make heap.heapend (n.toNat + 1) := (mem_make whole).mpr (by omega)
    rw [size]
    exact inSeg
  · have start : (again.rv64 10).toNat = heap.heapend := by rw [addr, back]
    have length : (again.rv64 11).toNat = n.toNat := by rw [count']
    have released : HeapMem.release heap.heapend n.toNat after.memSegs =
        .ok (some (heap.memSegs ++ remains n.toNat (MemSegment.make heap.heapend (n.toNat + 1)))) := by
      have new : HeapMem.release heap.heapend n.toNat
          [MemSegment.make heap.heapend (n.toNat + 1)] = _ := release_made
      rw [if_neg (by omega)] at new
      rw [facts.live, size, release_append, release_absent overlooked.unused]
      simp only [new]
      rfl
    rw [← start, ← length] at released
    have done := munmap_found released
    rw [start, length, free] at done
    refine ⟨_, _, done, setA0_same _ _, fun cell => ?_, fun cell => ?_⟩
    · have joined : Covered ((heap.memSegs ++ remains n.toNat
          (MemSegment.make heap.heapend (n.toNat + 1))).map addrs) cell ↔ Allocated heap cell := by
        rw [List.map_append, covered_append, addrs_last, below]
        refine or_iff_left_of_imp fun last => ?_
        have within := (mem_interval (by omega)).mp (covered_singleton.mp last)
        have same : cell = heap.heapend + n.toNat := by omega
        exact same ▸ overlooked.used
      exact joined
    · have absent : ¬ Covered (heap.freeMemSegs.map addrs) ((heap.heapend + n.toNat) % 2 ^ 64) := by
        rw [below]
        exact usable.not_both overlooked.used
      have same := (merged_same_iff made usable.free_apart usable.inside short absent).mpr
        ⟨overlooked.starts, fun cell member =>
          have within := (mem_interval straight).mp member
          overlooked.free cell within.1 within.2⟩
      exact same cell

/-- A pair of calls is inverse just where mmap gets no address or the free list overlooks the range at the
break. In whatever state, it takes a byte that is in use when mmap gives it away. A munmap that finds no
segment changes nothing, and never tells. -/
theorem mmap_munmap_iff (heap : HeapMem) (n : BitVec 64) :
    (Usable heap → 0 < n.toNat → (Inverse heap n ↔ NoAddress heap n.toNat ∨ Overlooked heap n.toNat)) ∧
    (Formed heap → n.toNat + 1 < 2 ^ 64 → Inverse heap n →
      NoAddress heap n.toNat ∨ Allocated heap ((place heap (n.toNat + 1) + n.toNat) % 2 ^ 64)) ∧
    ∀ regs : RevRegFile, (∀ seg ∈ heap.memSegs, seg.baseAddr ≠ (regs.rv64 10).toNat) →
      ecallMunmap regs heap = .ok (setA0 regs 1, heap) ∧ ¬ Reports regs heap := by
  refine ⟨fun usable positive => ?_, fun formed short inverse => ?_, fun regs absent => ?_⟩
  · constructor
    · intro inverse
      cases taken : heap.allocMem ((n.toNat + 1) % 2 ^ 64) with
      | error fault => exact .inl (allocMem_refused.mp ⟨fault, taken⟩)
      | ok found =>
        rcases Nat.lt_or_ge (n.toNat + 1) (2 ^ 64) with short | long
        · exact .inr (break_overlooked usable inverse positive short taken)
        · have whole : n.toNat + 1 = 2 ^ 64 := Nat.le_antisymm n.isLt long
          exact (wrapped_loses usable inverse whole taken).elim
    · rintro (refused | overlooked)
      · intro regs given after null count called
        have ⟨fault, failed⟩ := allocMem_refused.mpr refused
        have ⟨base, taken, _⟩ := mmap_given null count called
        rw [failed] at taken
        cases taken
      · exact overlooked_inverse usable overlooked
  · cases taken : heap.allocMem ((n.toNat + 1) % 2 ^ 64) with
    | error fault => exact .inl (allocMem_refused.mp ⟨fault, taken⟩)
    | ok found =>
      have used := last_used formed inverse short taken
      rw [(allocMem_given taken).place, Nat.mod_eq_of_lt short] at used
      exact .inr used
  · have answered := munmap_absent absent
    exact ⟨answered, not_reports answered⟩

end Ecalls
section Small

def oneFree : HeapMem := heapOf [] [⟨16, 1000, 1016⟩]

/-- Two free segments of four bytes at the break, and a segment in use behind them. -/
def pieces : HeapMem :=
  { heapOf [⟨24, 8, 32⟩] [⟨16, 4, 20⟩, ⟨20, 4, 24⟩] with
    mem := { (heapOf [⟨24, 8, 32⟩] [⟨16, 4, 20⟩, ⟨20, 4, 24⟩]).mem with heapend := 16 }
    maxHeapSize := 1000 }

theorem oneFree_usable : Usable oneFree where
  made := by
    intro seg member
    rw [List.mem_singleton.mp member]
    exact ⟨by decide, by decide, rfl⟩
  inside := by decide
  room := by decide
  apart := List.pairwise_singleton _ _

theorem pieces_usable : Usable pieces where
  made := by
    intro seg member
    rcases List.mem_cons.mp member with same | rest
    · rw [same]
      exact ⟨by decide, by decide, rfl⟩
    · rcases List.mem_pair.mp rest with same | same
      · rw [same]
        exact ⟨by decide, by decide, rfl⟩
      · rw [same]
        exact ⟨by decide, by decide, rfl⟩
  inside := by decide
  room := by decide
  apart := by
    refine List.pairwise_cons.mpr ⟨fun other member => ?_, List.pairwise_pair.mpr ?_⟩
    · rcases List.mem_pair.mp member with same | same
      · rw [same]
        exact apart_below (by decide) (by decide)
      · rw [same]
        exact apart_below (by decide) (by decide)
    · have above : Apart (addrs ⟨20, 4, 24⟩) (addrs ⟨16, 4, 20⟩) :=
        apart_below (by decide) (by decide)
      exact above.symm

theorem pieces_overlooked : Overlooked pieces 8 where
  small := by
    intro seg member
    rcases List.mem_pair.mp member with same | same
    · rw [same]
      decide
    · rw [same]
      decide
  fits := by decide
  free := by
    intro cell low high
    have low : 16 ≤ cell := low
    have high : cell < 16 + 8 := high
    rcases Nat.lt_or_ge cell 20 with first | second
    · have here : cell ∈ addrs ⟨16, 4, 20⟩ := (mem_interval (by decide)).mpr ⟨low, first⟩
      exact covered_cons.mpr (.inl here)
    · have here : cell ∈ addrs ⟨20, 4, 24⟩ := (mem_interval (by decide)).mpr ⟨second, high⟩
      exact covered_cons.mpr (.inr (covered_singleton.mpr here))
  starts := by
    intro seg member
    rcases List.mem_pair.mp member with same | same
    · rw [same]
      decide
    · rw [same]
      decide
  used := covered_singleton.mpr ((mem_interval (by decide)).mpr (by decide))
  unused := by
    intro seg member
    rw [List.mem_singleton.mp member]
    decide

/-- mmap has no room, it overlooks free bytes, it takes free bytes, and munmap finds nothing. -/
theorem mmap_munmap_iff_small :
    Inverse oneFree 2000 ∧ Inverse pieces 8 ∧ ¬ Inverse oneFree 4 ∧
      (Inverse pieces 8 → NoAddress pieces 8 ∨ Allocated pieces 24) ∧
      ecallMunmap (argRegs 64 4) oneFree = .ok (setA0 (argRegs 64 4) 1, oneFree) := by
  have full : NoAddress oneFree 2000 := by
    refine ⟨fun seg member => ?_, by decide⟩
    rw [List.mem_singleton.mp member]
    decide
  have room : ¬ (NoAddress oneFree 4 ∨ Overlooked oneFree 4) := by
    rintro (none | overlooked)
    · exact absurd (none.1 _ (List.mem_singleton_self _)) (by decide)
    · exact absurd (overlooked.small _ (List.mem_singleton_self _)) (by decide)
  refine ⟨((mmap_munmap_iff oneFree 2000).1 oneFree_usable (by decide)).mpr (.inl full),
    ((mmap_munmap_iff pieces 8).1 pieces_usable (by decide)).mpr (.inr pieces_overlooked),
    fun inverse => room (((mmap_munmap_iff oneFree 4).1 oneFree_usable (by decide)).mp inverse),
    (mmap_munmap_iff pieces 8).2.1 pieces_usable.toFormed (by decide),
    ((mmap_munmap_iff oneFree 4).2.2 (argRegs 64 4) fun seg member => absurd member List.not_mem_nil).1⟩

/-- Four bytes are mapped and unmapped, and a fifth one stays in use. Then munmap finds nothing. -/
theorem pair_keeps_a_byte :
    ecallMmap (argRegs 0 4) oneFree =
        .ok (setA0 (argRegs 0 4) 16, heapOf [⟨16, 5, 21⟩] [⟨21, 995, 1016⟩]) ∧
      ecallMunmap (argRegs 16 4) (heapOf [⟨16, 5, 21⟩] [⟨21, 995, 1016⟩]) =
        .ok (setA0 (argRegs 16 4) 0, heapOf [⟨20, 1, 21⟩] [⟨21, 995, 1016⟩, ⟨16, 4, 20⟩]) ∧
      Free oneFree 20 ∧ ¬ Allocated oneFree 20 ∧
      Allocated (heapOf [⟨20, 1, 21⟩] [⟨21, 995, 1016⟩, ⟨16, 4, 20⟩]) 20 ∧
      ¬ Inverse oneFree 4 ∧
      ecallMunmap (argRegs 64 4) oneFree = .ok (setA0 (argRegs 64 4) 1, oneFree) ∧
      ¬ Reports (argRegs 64 4) oneFree := by
  have taken : oneFree.allocMem (((4#64).toNat + 1) % 2 ^ 64) =
      .ok (16, heapOf [⟨16, 5, 21⟩] [⟨21, 995, 1016⟩]) := rfl
  have answered : ecallMunmap (argRegs 64 4) oneFree = .ok (setA0 (argRegs 64 4) 1, oneFree) := rfl
  have unused : ¬ Allocated oneFree 20 := not_covered_nil
  refine ⟨rfl, rfl, ?_, unused, ?_, fun inverse => ?_, answered, not_reports answered⟩
  · exact covered_singleton.mpr ((mem_interval (by decide)).mpr (by decide))
  · exact covered_singleton.mpr ((mem_interval (by decide)).mpr (by decide))
  · exact unused (last_used oneFree_usable.toFormed inverse (by decide) taken)

end Small
end RevCPU.Mmap
