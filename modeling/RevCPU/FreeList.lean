import RevCPU.Heap
import RevCPU.Lib.Arc
/-!
The free list of RevMem.cc as a ledger of addresses. Whatever AllocMem takes from a free segment and
DeallocMem gives back to the list, the addresses that are allocated or free stay the same ones, and none
is counted twice. A segment is taken as its addresses in 64-bit arithmetic, so that one which reaches
the end of the address space goes on at its start.
-/
namespace RevCPU.FreeList
open Mem Heap Regions Arcs

def addrs (seg : MemSegment) : Arc (2 ^ 64) := ⟨seg.baseAddr, seg.size⟩

/-- A segment as its constructor and its setters leave it. -/
structure Made (seg : MemSegment) : Prop where
  base : seg.baseAddr < 2 ^ 64
  size : seg.size < 2 ^ 64
  top : seg.topAddr = (seg.baseAddr + seg.size) % 2 ^ 64

def Allocated (heap : HeapMem) (cell : Nat) : Prop := Covered (heap.memSegs.map addrs) cell

def Free (heap : HeapMem) (cell : Nat) : Prop := Covered (heap.freeMemSegs.map addrs) cell

/-- Segments in use and free segments share no address, and do not make up the whole address space. -/
structure Ledger (live free : List MemSegment) : Prop where
  made : ∀ seg ∈ live ++ free, Made seg
  apart : ((live ++ free).map addrs).Pairwise Apart
  room : ∃ cell < 2 ^ 64, ¬ Covered ((live ++ free).map addrs) cell

section Segments
variable {seg : MemSegment} {base size : Nat}

theorem make_made (inside : base < 2 ^ 64) (short : size < 2 ^ 64) : Made (MemSegment.make base size) :=
  ⟨inside, short, rfl⟩

theorem setSize_made (made : Made seg) (short : size < 2 ^ 64) : Made (seg.setSize size) :=
  ⟨made.base, short, rfl⟩

theorem mem_of_contains {cell : Nat} (made : Made seg) (holds : seg.contains cell = true) :
    seg.baseAddr + seg.size < 2 ^ 64 ∧ seg.baseAddr ≤ cell ∧ cell < seg.baseAddr + seg.size := by
  rw [MemSegment.contains, Bool.and_eq_true, decide_eq_true_iff, decide_eq_true_iff, made.top] at holds
  have low := made.base
  have short := made.size
  omega

theorem addrs_of_contains {cell : Nat} (made : Made seg)
    (holds : seg.contains cell = true) : cell ∈ addrs seg := by
  have ⟨straight, within⟩ := mem_of_contains made holds
  rw [addrs, mem_interval (Nat.le_of_lt straight)]
  exact within

/-- What stays of a segment whose first `size` addresses are given away. -/
def remains (size : Nat) (seg : MemSegment) : List MemSegment :=
  if size < seg.size then [(seg.setBaseAddr ((seg.baseAddr + size) % 2 ^ 64)).setSize (seg.size - size)]
  else []

theorem split_front (made : Made seg) (inside : size ≤ seg.size) :
    (∀ part ∈ remains size seg, Made part) ∧
      ((MemSegment.make seg.baseAddr size :: remains size seg).map addrs).Pairwise Apart ∧
      ∀ cell, Covered ((MemSegment.make seg.baseAddr size :: remains size seg).map addrs) cell ↔
        cell ∈ addrs seg := by
  have short := made.size
  rw [remains]
  split
  · have whole : size + (seg.size - size) = seg.size := Nat.add_sub_of_le inside
    have within : size + (seg.size - size) ≤ 2 ^ 64 := by omega
    refine ⟨fun part member => ?_, ?_, fun cell => ?_⟩
    · rw [List.mem_singleton.mp member]
      exact ⟨Nat.mod_lt _ (by decide), Nat.lt_of_le_of_lt (Nat.sub_le _ _) short, rfl⟩
    · exact List.pairwise_pair.mpr (apart_join made.base within)
    · have joined : cell ∈ (⟨seg.baseAddr, size + (seg.size - size)⟩ : Arc (2 ^ 64)) ↔ _ :=
        mem_join made.base within
      rw [whole] at joined
      exact covered_cons.trans ((or_congr_right covered_singleton).trans joined.symm)
  · have whole : size = seg.size := by omega
    refine ⟨fun part member => absurd member List.not_mem_nil, List.pairwise_singleton _ _, fun cell => ?_⟩
    rw [whole]
    exact covered_singleton

end Segments
section Lists
variable {base size : Nat} {live free left : List MemSegment}

theorem takeFree_cases (taken : HeapMem.takeFree size free = some (base, left)) :
    ∃ seg front back, seg.baseAddr = base ∧ size ≤ seg.size ∧ free = front ++ seg :: back ∧
      left = front ++ remains size seg ++ back := by
  rw [HeapMem.takeFree] at taken
  obtain ⟨⟨seg, rest⟩, replaced, same⟩ := Option.map_eq_some_iff.mp taken
  cases same
  obtain ⟨_, enough, front, back, split, result⟩ := replaceFirst_eq_some replaced
  exact ⟨seg, front, back, rfl, of_decide_eq_true enough, split, result⟩

theorem release_cases (released : HeapMem.release base size live = .ok (some left)) :
    ∃ seg front back, seg.baseAddr = base ∧ size ≤ seg.size ∧ live = front ++ seg :: back ∧
      left = front ++ remains size seg ++ back := by
  cases found : live.find? fun seg => decide (seg.baseAddr = base) with
  | none =>
    rw [release_none found] at released
    cases released
  | some seg =>
    have ⟨starts, front, back, split, result⟩ := release_some size found
    rw [result] at released
    split at released
    · cases released
    · rename_i inside
      subst starts
      have same := Option.some.inj (Except.ok.inj released)
      exact ⟨seg, front, back, rfl, Nat.le_of_not_lt inside, split, same.symm⟩

theorem perm_addrs {before one two : List MemSegment} (same : before.Perm (one ++ two)) :
    (before.map addrs).Perm (one.map addrs ++ two.map addrs) := by
  rw [← List.map_append]
  exact same.map addrs

theorem cut_front {seg : MemSegment} {before after others : List MemSegment}
    (made : ∀ seg ∈ before, Made seg) (apart : (before.map addrs).Pairwise Apart)
    (inside : size ≤ seg.size) (old : before.Perm ([seg] ++ others))
    (new : after.Perm (MemSegment.make seg.baseAddr size :: remains size seg ++ others)) :
    (∀ seg ∈ after, Made seg) ∧ (after.map addrs).Pairwise Apart ∧
      ∀ cell, Covered (after.map addrs) cell ↔ Covered (before.map addrs) cell := by
  have held := made seg (old.mem_iff.mpr List.mem_cons_self)
  have ⟨parts, inner, whole⟩ := split_front held inside
  refine ⟨fun other member => ?_, ?_⟩
  · rcases List.mem_append.mp (new.mem_iff.mp member) with piece | rest
    · rcases List.mem_cons.mp piece with front | back
      · rw [front]
        exact make_made held.base (Nat.lt_of_le_of_lt inside held.size)
      · exact parts other back
    · exact made other (old.mem_iff.mpr (List.mem_append_right _ rest))
  · exact regroup apart (perm_addrs old) (perm_addrs new) inner
      fun cell => (whole cell).trans covered_singleton.symm

theorem covered_range (cell : Nat) : Covered ((free ++ [MemSegment.make base size]).map addrs) cell ↔
    Covered (free.map addrs) cell ∨ cell ∈ (⟨base, size⟩ : Arc (2 ^ 64)) := by
  rw [List.map_append, covered_append]
  exact or_congr_right covered_singleton

theorem front_given {seg : MemSegment} {front back : List MemSegment} (made : Made seg)
    (inside : size ≤ seg.size) (cell : Nat) :
    Covered ((front ++ seg :: back).map addrs) cell ↔
      Covered ((front ++ remains size seg ++ back).map addrs) cell ∨
        cell ∈ (⟨seg.baseAddr, size⟩ : Arc (2 ^ 64)) := by
  have whole := (split_front made inside).2.2 cell
  have parts : cell ∈ addrs seg ↔ cell ∈ (⟨seg.baseAddr, size⟩ : Arc (2 ^ 64)) ∨
      Covered ((remains size seg).map addrs) cell := whole.symm.trans covered_cons
  simp only [List.map_append, List.map_cons, covered_append, covered_cons, parts, or_assoc]
  refine or_congr_right ?_
  rw [or_comm, or_assoc]

/-- The free segment that holds the address before a range ends where the range starts, unless the range is
empty, and has room for it. -/
theorem merged_end {seg : MemSegment} (made : Made seg) (inside : base < 2 ^ 64)
    (holds : seg.contains ((base + 2 ^ 64 - 1) % 2 ^ 64) = true)
    (start : 0 < size → base ∉ addrs seg)
    (room : ∃ cell < 2 ^ 64, cell ∉ addrs seg ∧ cell ∉ (⟨base, size⟩ : Arc (2 ^ 64))) :
    seg.size + size < 2 ^ 64 ∧ ∀ cell, cell ∈ addrs (seg.setSize (seg.size + size)) ↔
      cell ∈ addrs seg ∨ cell ∈ (⟨base, size⟩ : Arc (2 ^ 64)) := by
  have ⟨straight, _, _⟩ := mem_of_contains made holds
  have low := made.base
  have short := made.size
  have near : seg.baseAddr < base ∧ base ≤ seg.baseAddr + seg.size := by omega
  rcases Nat.eq_zero_or_pos size with empty | some
  · rw [empty, Nat.add_zero]
    refine ⟨short, fun cell => ?_⟩
    constructor
    · exact .inl
    · rintro (member | nothing)
      · exact member
      · exact absurd nothing not_mem_empty
  · have outside := start some
    rw [addrs, mem_interval (Nat.le_of_lt straight)] at outside
    have ends : (seg.baseAddr + seg.size) % 2 ^ 64 = base := by omega
    have ⟨cell, real, absent, absent'⟩ := room
    rw [← ends] at absent'
    have fits := room_of_left_out low (Nat.le_of_lt short) absent absent' real
    refine ⟨fits, fun cell => ?_⟩
    rw [← ends]
    exact mem_join low (Nat.le_of_lt fits)

/-- The free list when DeallocMem has put a range on it. -/
def joinFree (base size : Nat) (free : List MemSegment) : List MemSegment :=
  (HeapMem.mergeFree base size free).getD (free ++ [MemSegment.make base size])

theorem joinFree_cases (base size : Nat) (free : List MemSegment) :
    ((∀ seg ∈ free, ¬ seg.contains ((base + 2 ^ 64 - 1) % 2 ^ 64) = true) ∧
        joinFree base size free = free ++ [MemSegment.make base size]) ∨
      ∃ seg front back, seg.contains ((base + 2 ^ 64 - 1) % 2 ^ 64) = true ∧ free = front ++ seg :: back ∧
        joinFree base size free = front ++ [seg.setSize ((seg.size + size) % 2 ^ 64)] ++ back := by
  cases found : free.find? fun seg => seg.contains ((base + 2 ^ 64 - 1) % 2 ^ 64) with
  | none =>
    rw [joinFree, HeapMem.mergeFree, replaceFirst_eq_none.mpr found]
    exact .inl ⟨List.find?_eq_none.mp found, rfl⟩
  | some seg =>
    obtain ⟨holds, front, back, split, replaced⟩ := replaceFirst_of_find
      (fun seg => [seg.setSize ((seg.size + size) % 2 ^ 64)]) found
    rw [joinFree, HeapMem.mergeFree, replaced]
    exact .inr ⟨seg, front, back, holds, split, rfl⟩

theorem merged_covered {seg : MemSegment} {front back : List MemSegment} (fits : seg.size + size < 2 ^ 64)
    (merged : ∀ cell, cell ∈ addrs (seg.setSize (seg.size + size)) ↔
      cell ∈ addrs seg ∨ cell ∈ (⟨base, size⟩ : Arc (2 ^ 64))) (cell : Nat) :
    Covered ((front ++ [seg.setSize ((seg.size + size) % 2 ^ 64)] ++ back).map addrs) cell ↔
      Covered ((front ++ seg :: back).map addrs) cell ∨ cell ∈ (⟨base, size⟩ : Arc (2 ^ 64)) := by
  rw [Nat.mod_eq_of_lt fits]
  simp only [List.map_append, List.map_cons, List.map_nil, covered_append, covered_cons, not_covered_nil,
    merged cell, or_false, or_assoc]
  exact or_congr_right (or_congr_right or_comm)

theorem refund {rest : List MemSegment} (inside : base < 2 ^ 64)
    (made : ∀ seg ∈ rest ++ (free ++ [MemSegment.make base size]), Made seg)
    (apart : ((rest ++ (free ++ [MemSegment.make base size])).map addrs).Pairwise Apart)
    (room : ∃ cell < 2 ^ 64, ¬ Covered ((rest ++ (free ++ [MemSegment.make base size])).map addrs) cell) :
    (∀ seg ∈ rest ++ joinFree base size free, Made seg) ∧
      ((rest ++ joinFree base size free).map addrs).Pairwise Apart ∧
      ∀ cell, Covered ((joinFree base size free).map addrs) cell ↔
        Covered (free.map addrs) cell ∨ cell ∈ (⟨base, size⟩ : Arc (2 ^ 64)) := by
  rcases joinFree_cases base size free with ⟨_, added⟩ | ⟨seg, front, back, holds, split, grown⟩
  · rw [added]
    exact ⟨made, apart, covered_range⟩
  · have old : (rest ++ (free ++ [MemSegment.make base size])).Perm
        ([seg, MemSegment.make base size] ++ (rest ++ front ++ back)) := by
      rw [split, List.perm_iff_count]
      intro one
      simp only [List.count_append, List.count_cons, List.count_nil]
      omega
    have new : ∀ merged, (rest ++ (front ++ [merged] ++ back)).Perm
        ([merged] ++ (rest ++ front ++ back)) := by
      intro merged
      rw [List.perm_iff_count]
      intro one
      simp only [List.count_append]
      omega
    have held := made seg (old.mem_iff.mpr List.mem_cons_self)
    have ⟨pair, _⟩ := List.pairwise_append.mp ((pairwise_perm (perm_addrs old)).mp apart)
    have left : ∃ cell < 2 ^ 64, cell ∉ addrs seg ∧ cell ∉ (⟨base, size⟩ : Arc (2 ^ 64)) := by
      have ⟨cell, real, absent⟩ := room
      rw [covered_perm (perm_addrs old), covered_append, not_or] at absent
      refine ⟨cell, real, fun member => absent.1 ?_, fun member => absent.1 ?_⟩
      · exact ⟨_, List.mem_cons_self, member⟩
      · exact ⟨_, List.mem_cons_of_mem _ List.mem_cons_self, member⟩
    have clear : Apart (addrs seg) (⟨base, size⟩ : Arc (2 ^ 64)) := List.pairwise_pair.mp pair
    have ⟨fits, merged⟩ :=
      merged_end held inside holds (fun some member => clear base member (mem_base inside some)) left
    have whole : ∀ cell, Covered ([seg.setSize ((seg.size + size) % 2 ^ 64)].map addrs) cell ↔
        Covered ([seg, MemSegment.make base size].map addrs) cell := by
      intro cell
      rw [Nat.mod_eq_of_lt fits]
      exact covered_singleton.trans ((merged cell).trans
        (covered_cons.trans (or_congr_right covered_singleton)).symm)
    rw [grown]
    refine ⟨fun other member => ?_, ?_, fun cell => ?_⟩
    · rcases List.mem_append.mp ((new _).mem_iff.mp member) with here | other'
      · rw [List.mem_singleton.mp here]
        exact setSize_made held (Nat.mod_lt _ (by decide))
      · exact made other (old.mem_iff.mpr (List.mem_append_right _ other'))
    · exact (regroup apart (perm_addrs old) (perm_addrs (new _)) (List.pairwise_singleton _ _) whole).1
    · rw [split]
      exact merged_covered fits merged cell

end Lists
/-- A range goes from one set of addresses to the other, and nothing else moves. -/
structure Moved (source target source' target' : Nat → Prop) (range : Arc (2 ^ 64)) : Prop where
  within : ∀ cell ∈ range, source cell
  left : ∀ cell, source' cell ↔ source cell ∧ cell ∉ range
  joined : ∀ cell, target' cell ↔ target cell ∨ cell ∈ range

theorem moved_of {source target source' target' : Nat → Prop} {range : Arc (2 ^ 64)}
    (given : ∀ cell, source cell ↔ source' cell ∨ cell ∈ range)
    (joined : ∀ cell, target' cell ↔ target cell ∨ cell ∈ range)
    (clear : ∀ cell, target' cell → source' cell → False) : Moved source target source' target' range where
  within := fun cell member => (given cell).mpr (.inr member)
  left := by
    intro cell
    constructor
    · intro still
      exact ⟨(given cell).mpr (.inl still), fun member => clear cell ((joined cell).mpr (.inr member)) still⟩
    · rintro ⟨before, outside⟩
      exact ((given cell).mp before).resolve_right outside
  joined := joined

theorem Moved.union {source target source' target' : Nat → Prop} {range : Arc (2 ^ 64)}
    (moved : Moved source target source' target' range) (cell : Nat) :
    target' cell ∨ source' cell ↔ target cell ∨ source cell := by
  rw [moved.joined, moved.left]
  constructor
  · rintro ((held | member) | still)
    · exact .inl held
    · exact .inr (moved.within cell member)
    · exact .inr still.1
  · rintro (held | before)
    · exact .inl (.inl held)
    · by_cases member : cell ∈ range
      · exact .inl (.inr member)
      · exact .inr ⟨before, member⟩

section Calls
variable {heap after : HeapMem} {base size result : Nat} {left : List MemSegment}
  (ledger : Ledger heap.memSegs heap.freeMemSegs)
include ledger

theorem allocMem_moved (taken : HeapMem.takeFree size heap.freeMemSegs = some (base, left)) :
    ∃ after, heap.allocMem size = .ok (base, after) ∧ Ledger after.memSegs after.freeMemSegs ∧
      Moved (Free heap) (Allocated heap) (Free after) (Allocated after) ⟨base, size⟩ := by
  obtain ⟨seg, front, back, starts, enough, split, rest⟩ := takeFree_cases taken
  subst starts
  have old : (heap.memSegs ++ heap.freeMemSegs).Perm ([seg] ++ (heap.memSegs ++ front ++ back)) := by
    rw [split, List.perm_iff_count]
    intro one
    simp only [List.count_append, List.count_cons, List.count_nil]
    omega
  have new : (heap.memSegs ++ [MemSegment.make seg.baseAddr size] ++ left).Perm
      (MemSegment.make seg.baseAddr size :: remains size seg ++ (heap.memSegs ++ front ++ back)) := by
    rw [rest, List.perm_iff_count]
    intro one
    simp only [List.count_append, List.count_cons, List.count_nil]
    omega
  obtain ⟨made, apart, same⟩ := cut_front ledger.made ledger.apart enough old new
  refine ⟨{ heap.setMemSegs (heap.memSegs ++ [MemSegment.make seg.baseAddr size]) with freeMemSegs := left },
    by rw [HeapMem.allocMem, taken], ⟨made, apart, ?_⟩, ?_⟩
  · obtain ⟨cell, real, absent⟩ := ledger.room
    exact ⟨cell, real, fun covered => absent ((same cell).mp covered)⟩
  · apply moved_of
    · intro cell
      have held := ledger.made seg (old.mem_iff.mpr List.mem_cons_self)
      rw [Free, Free, split, rest]
      exact front_given held enough cell
    · exact covered_range
    · intro cell inUse free
      rw [List.map_append] at apart
      exact covered_apart apart inUse free

theorem deallocMem_moved (inside : base < 2 ^ 64) (called : heap.deallocMem base size = .ok (result, after)) :
    (result = 0 ∧ Ledger after.memSegs after.freeMemSegs ∧
        Moved (Allocated heap) (Free heap) (Allocated after) (Free after) ⟨base, size⟩) ∨
      (result = 2 ^ 64 - 1 ∧ after = heap) := by
  rw [HeapMem.deallocMem] at called
  split at called
  · cases called
  · cases called
    exact .inr ⟨rfl, rfl⟩
  · rename_i segs released
    cases called
    left
    obtain ⟨seg, front, back, starts, enough, split, rest⟩ := release_cases released
    subst starts
    have old : (heap.memSegs ++ heap.freeMemSegs).Perm ([seg] ++ (front ++ back ++ heap.freeMemSegs)) := by
      rw [split, List.perm_iff_count]
      intro one
      simp only [List.count_append, List.count_cons, List.count_nil]
      omega
    have new : (segs ++ (heap.freeMemSegs ++ [MemSegment.make seg.baseAddr size])).Perm
        (MemSegment.make seg.baseAddr size :: remains size seg ++ (front ++ back ++ heap.freeMemSegs)) := by
      rw [rest, List.perm_iff_count]
      intro one
      simp only [List.count_append, List.count_cons, List.count_nil]
      omega
    obtain ⟨made, apart, same⟩ := cut_front ledger.made ledger.apart enough old new
    have room : ∃ cell < 2 ^ 64,
        ¬ Covered ((segs ++ (heap.freeMemSegs ++ [MemSegment.make seg.baseAddr size])).map addrs) cell := by
      obtain ⟨cell, real, absent⟩ := ledger.room
      exact ⟨cell, real, fun covered => absent ((same cell).mp covered)⟩
    obtain ⟨made', apart', joined⟩ := refund inside made apart room
    refine ⟨rfl, ⟨made', apart', ?_⟩, ?_⟩
    · obtain ⟨cell, real, absent⟩ := room
      refine ⟨cell, real, fun covered => absent ?_⟩
      rw [List.map_append, covered_append] at covered ⊢
      exact covered.imp_right fun free => (covered_range cell).mpr ((joined cell).mp free)
    · apply moved_of
      · intro cell
        have held := ledger.made seg (old.mem_iff.mpr List.mem_cons_self)
        have given : Covered ((front ++ seg :: back).map addrs) cell ↔ _ := front_given held enough cell
        rw [← split, ← rest] at given
        exact given
      · exact joined
      · intro cell free inUse
        rw [List.map_append] at apart'
        exact covered_apart apart' inUse free

end Calls
/-- The runs of DeallocMem and of AllocMem as far as the free list satisfies it, without a fatal error. -/
inductive Runs (start : HeapMem) : HeapMem → Prop
  | start : Runs start start
  | allocMem {heap after : HeapMem} {base result : Nat} {left : List MemSegment} (size : Nat)
      (before : Runs start heap) (taken : HeapMem.takeFree size heap.freeMemSegs = some (base, left))
      (called : heap.allocMem size = .ok (result, after)) : Runs start after
  | deallocMem {heap after : HeapMem} {result : Nat} (base size : Nat) (before : Runs start heap)
      (inside : base < 2 ^ 64) (called : heap.deallocMem base size = .ok (result, after)) : Runs start after

theorem runs_ledger {start heap : HeapMem} (ledger : Ledger start.memSegs start.freeMemSegs)
    (run : Runs start heap) : Ledger heap.memSegs heap.freeMemSegs ∧
      ∀ cell, Allocated heap cell ∨ Free heap cell ↔ Allocated start cell ∨ Free start cell := by
  induction run with
  | start => exact ⟨ledger, fun _ => Iff.rfl⟩
  | allocMem size before taken called ih =>
    have ⟨next, returned, still, moved⟩ := allocMem_moved ih.1 taken
    rw [returned] at called
    cases called
    exact ⟨still, fun cell => (moved.union cell).trans (ih.2 cell)⟩
  | deallocMem base size before inside called ih =>
    rcases deallocMem_moved ih.1 inside called with ⟨_, still, moved⟩ | ⟨_, same⟩
    · refine ⟨still, fun cell => ?_⟩
      rw [or_comm, moved.union, or_comm]
      exact ih.2 cell
    · rw [same]
      exact ih

/-- In every state of such a run the two sides share no address and make up the same set as at the start,
and the next call moves exactly its own range. -/
theorem free_list_conserves {start heap : HeapMem} (ledger : Ledger start.memSegs start.freeMemSegs)
    (run : Runs start heap) :
    ((heap.memSegs ++ heap.freeMemSegs).map addrs).Pairwise Apart ∧
      (∀ cell, Allocated heap cell ∨ Free heap cell ↔ Allocated start cell ∨ Free start cell) ∧
      (∀ size base left, HeapMem.takeFree size heap.freeMemSegs = some (base, left) →
        ∃ after, heap.allocMem size = .ok (base, after) ∧
          Moved (Free heap) (Allocated heap) (Free after) (Allocated after) ⟨base, size⟩) ∧
      ∀ base size result after, base < 2 ^ 64 → heap.deallocMem base size = .ok (result, after) →
        (result = 0 ∧ Moved (Allocated heap) (Free heap) (Allocated after) (Free after) ⟨base, size⟩) ∨
          (result = 2 ^ 64 - 1 ∧ after = heap) := by
  have ⟨still, union⟩ := runs_ledger ledger run
  refine ⟨still.apart, union, fun size base left taken => ?_, fun base size result after inside called => ?_⟩
  · have ⟨after, returned, _, moved⟩ := allocMem_moved still taken
    exact ⟨after, returned, moved⟩
  · rcases deallocMem_moved still inside called with ⟨zero, _, moved⟩ | nothing
    · exact .inl ⟨zero, moved⟩
    · exact .inr nothing

section Whole

/-- Segments in use and free segments, in a memory whose other fields do not matter. -/
def heapOf (live free : List MemSegment) : HeapMem :=
  ⟨{ RevMem.new 2097152 16 1 0 with memSegs := live }, free, 0⟩

theorem apart_below {one two : MemSegment} (below : one.baseAddr + one.size ≤ two.baseAddr)
    (fits : two.baseAddr + two.size ≤ 2 ^ 64) : Apart (addrs two) (addrs one) := by
  intro cell high low
  rw [addrs, mem_interval fits] at high
  rw [addrs, mem_interval (by omega)] at low
  omega

theorem heapOf_ledger : Ledger (heapOf [⟨32, 32, 64⟩] [⟨16, 16, 32⟩]).memSegs
    (heapOf [⟨32, 32, 64⟩] [⟨16, 16, 32⟩]).freeMemSegs where
  made := by
    intro seg member
    rcases List.mem_pair.mp member with same | same
    · rw [same]
      exact ⟨by decide, by decide, rfl⟩
    · rw [same]
      exact ⟨by decide, by decide, rfl⟩
  apart := List.pairwise_pair.mpr (apart_below (Nat.le_refl 32) (by decide))
  room := by
    refine ⟨0, by decide, fun covered => ?_⟩
    rcases covered_cons.mp covered with high | low
    · exact absurd ((mem_interval (by decide)).mp high) (by decide)
    · exact absurd ((mem_interval (by decide)).mp (covered_singleton.mp low)) (by decide)

-- A free segment grows by half of the segment behind it and then gives most of itself away.
theorem free_list_conserves_merged :
    ∃ heap, Runs (heapOf [⟨32, 32, 64⟩] [⟨16, 16, 32⟩]) heap ∧
      heap.memSegs = [⟨48, 16, 64⟩, ⟨16, 24, 40⟩] ∧ heap.freeMemSegs = [⟨40, 8, 48⟩] ∧
      ∀ cell, Allocated heap cell ∨ Free heap cell ↔
        Allocated (heapOf [⟨32, 32, 64⟩] [⟨16, 16, 32⟩]) cell ∨
          Free (heapOf [⟨32, 32, 64⟩] [⟨16, 16, 32⟩]) cell := by
  have freed : Runs (heapOf [⟨32, 32, 64⟩] [⟨16, 16, 32⟩]) (heapOf [⟨48, 16, 64⟩] [⟨16, 32, 48⟩]) :=
    .deallocMem 32 16 .start (by decide) rfl
  have taken : Runs (heapOf [⟨32, 32, 64⟩] [⟨16, 16, 32⟩])
      (heapOf [⟨48, 16, 64⟩, ⟨16, 24, 40⟩] [⟨40, 8, 48⟩]) := .allocMem 24 freed rfl rfl
  exact ⟨_, taken, rfl, rfl, (free_list_conserves heapOf_ledger taken).2.1⟩

-- The whole address space in two segments: they merge to one whose size is 0.
theorem whole_space_lost :
    (∀ seg ∈ [⟨16, 2 ^ 64 - 16, 0⟩, ⟨0, 16, 16⟩], Made seg) ∧
      ([⟨16, 2 ^ 64 - 16, 0⟩, ⟨0, 16, 16⟩].map addrs).Pairwise Apart ∧
      (heapOf [⟨16, 2 ^ 64 - 16, 0⟩] [⟨0, 16, 16⟩]).deallocMem 16 (2 ^ 64 - 16) =
        .ok (0, heapOf [] [⟨0, 0, 0⟩]) ∧
      Free (heapOf [⟨16, 2 ^ 64 - 16, 0⟩] [⟨0, 16, 16⟩]) 0 ∧
      ¬ (Allocated (heapOf [] [⟨0, 0, 0⟩]) 0 ∨ Free (heapOf [] [⟨0, 0, 0⟩]) 0) := by
  refine ⟨fun seg member => ?_, ?_, rfl, ?_, ?_⟩
  · rcases List.mem_pair.mp member with same | same
    · rw [same]
      exact ⟨by decide, by decide, rfl⟩
    · rw [same]
      exact ⟨by decide, by decide, rfl⟩
  · exact List.pairwise_pair.mpr (apart_below (Nat.le_refl 16) (by decide))
  · exact covered_singleton.mpr (mem_base (by decide) (by decide))
  · rintro (inUse | free)
    · exact not_covered_nil inUse
    · exact not_mem_empty (covered_singleton.mp free)

end Whole
end RevCPU.FreeList
