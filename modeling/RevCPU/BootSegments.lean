import RevCPU.Loader
import RevCPU.PrefetchWord
/-!
The segments that a file asks for. A request that starts in a segment, or below none of them, finds the
segments in the order of their bases and leaves them so: none is moved down, and nothing is lost.
-/
namespace RevCPU.Boot
open Mem Heap Loader Regions MemRefine

/-- The segments are sound, in the order of their bases and below a limit. -/
structure Arranged (limit : Nat) (mem : RevMem) : Prop where
  sound : ∀ seg ∈ mem.memSegs, Sound seg
  sorted : mem.memSegs.Pairwise fun one other => one.baseAddr ≤ other.baseAddr
  within : ∀ seg ∈ mem.memSegs, seg.topAddr ≤ limit

structure Added (mem : RevMem) (request : Request) (after : RevMem) : Prop where
  only : after = { mem with memSegs := after.memSegs }
  range : ∀ addr, request.base ≤ addr → addr < request.top → Covered after.memSegs addr
  kept : ∀ addr, Covered mem.memSegs addr → Covered after.memSegs addr
  bases : ∀ seg ∈ after.memSegs,
    seg.baseAddr = request.base ∨ ∃ old ∈ mem.memSegs, seg.baseAddr = old.baseAddr

section Add
variable {mem : RevMem} {request : Request} {limit : Nat}

theorem setSize_base (seg : MemSegment) (size : Nat) : (seg.setSize size).baseAddr = seg.baseAddr := rfl

theorem expand_base {seg : MemSegment} {base top : Nat} (holds : seg.contains base = true) :
    (expand base top seg).baseAddr = seg.baseAddr := by
  rw [expand, if_pos holds]
  split
  · rfl
  · exact setSize_base seg _

theorem hit_holds (arranged : Arranged limit mem) (fits : request.Fits)
    (starts : (∀ seg ∈ mem.memSegs, seg.baseAddr ≤ request.base) ∨ Covered mem.memSegs request.base)
    {front back : List MemSegment} {seg : MemSegment} (split : mem.memSegs = front ++ seg :: back)
    (earlier : ∀ other ∈ front, (other.contains request.base || other.contains request.top) = false)
    (here : (seg.contains request.base || seg.contains request.top) = true) :
    seg.contains request.base = true := by
  cases holds : seg.contains request.base with
  | true => rfl
  | false =>
    rw [holds, Bool.false_or] at here
    have above := base_below holds here (top_above fits)
    have member : seg ∈ mem.memSegs := split ▸ List.mem_append_right _ List.mem_cons_self
    rcases starts with below | ⟨other, found, inside⟩
    · have lower := below seg member
      omega
    · obtain ⟨low, _⟩ := mem_seg.mp inside
      rw [split] at found
      rcases List.mem_append.mp found with before | rest
      · have apart := earlier other before
        rw [show other.contains request.base = true from inside, Bool.true_or] at apart
        cases apart
      · rcases List.mem_cons.mp rest with rfl | behind
        · omega
        · have sorted := arranged.sorted
          rw [split] at sorted
          have ordered := (List.pairwise_cons.mp (List.pairwise_append.mp sorted).2.1).1 other behind
          omega

theorem added_fresh (arranged : Arranged limit mem) (fits : request.Fits) (short : request.top ≤ limit)
    (starts : (∀ seg ∈ mem.memSegs, seg.baseAddr ≤ request.base) ∨ Covered mem.memSegs request.base)
    (fresh : ∀ seg ∈ mem.memSegs, (seg.contains request.base || seg.contains request.top) = false)
    {after : RevMem} (result : after = { mem with memSegs := mem.memSegs ++
      [MemSegment.make request.base (roundedSegSize request.size request.round)] }) :
    Arranged limit after ∧ Added mem request after := by
  obtain ⟨_, whole, _⟩ := rounded_top fits
  have room := fits.top
  have lower : ∀ seg ∈ mem.memSegs, seg.baseAddr ≤ request.base := by
    rcases starts with below | ⟨seg, member, inside⟩
    · exact below
    · have apart := fresh seg member
      rw [show seg.contains request.base = true from inside, Bool.true_or] at apart
      cases apart
  have new : ∀ addr, addr ∈ MemSegment.make request.base (roundedSegSize request.size request.round) ↔
      request.base ≤ addr ∧ addr < request.base + roundedSegSize request.size request.round :=
    fun addr => mem_make (by omega)
  subst result
  constructor
  · constructor
    · intro seg member
      rcases List.mem_append.mp member with old | added
      · exact arranged.sound seg old
      · rw [List.mem_singleton.mp added]
        exact make_sound (by omega)
    · apply List.pairwise_append.mpr
      refine ⟨arranged.sorted, List.pairwise_singleton _ _, ?_⟩
      intro one first other second
      rw [List.mem_singleton.mp second]
      exact lower one first
    · intro seg member
      rcases List.mem_append.mp member with old | added
      · exact arranged.within seg old
      · rw [List.mem_singleton.mp added]
        change (request.base + roundedSegSize request.size request.round) % 2 ^ 64 ≤ limit
        omega
  · constructor
    · rfl
    · intro addr low high
      exact covered_append.mpr (.inr (covered_singleton.mpr ((new addr).mpr ⟨low, by omega⟩)))
    · intro addr covered
      exact covered_append.mpr (.inl covered)
    · intro seg member
      rcases List.mem_append.mp member with old | added
      · exact .inr ⟨seg, old, rfl⟩
      · rw [List.mem_singleton.mp added]
        exact .inl rfl

theorem sorted_replaced {front back : List MemSegment} {old new : MemSegment}
    (same : new.baseAddr = old.baseAddr)
    (sorted : (front ++ old :: back).Pairwise fun first second => first.baseAddr ≤ second.baseAddr) :
    (front ++ new :: back).Pairwise fun first second => first.baseAddr ≤ second.baseAddr := by
  have bases : (front ++ new :: back).map MemSegment.baseAddr =
      (front ++ old :: back).map MemSegment.baseAddr := by
    simp only [List.map_append, List.map_cons, same]
  rw [← List.pairwise_map] at sorted ⊢
  rw [bases]
  exact sorted

theorem added_expanded (arranged : Arranged limit mem) (fits : request.Fits) (short : request.top ≤ limit)
    {front back : List MemSegment} {seg : MemSegment} (split : mem.memSegs = front ++ seg :: back)
    (holds : seg.contains request.base = true) {after : RevMem} (result : after = { mem with
      memSegs := front ++ [expand request.base request.top seg] ++ back }) :
    Arranged limit after ∧ Added mem request after := by
  have member : seg ∈ mem.memSegs := split ▸ List.mem_append_right _ List.mem_cons_self
  have ordered := top_above fits
  obtain ⟨expanded, reach⟩ := expand_up (arranged.sound seg member) holds ordered fits.top
  have base : (expand request.base request.top seg).baseAddr = seg.baseAddr := expand_base holds
  obtain ⟨low, _⟩ := mem_seg.mp (show request.base ∈ seg from holds)
  have top : (expand request.base request.top seg).topAddr ≤ limit := by
    have bound := arranged.within seg member
    by_contra beyond
    have last : (expand request.base request.top seg).topAddr - 1 ∈ expand request.base request.top seg :=
      mem_seg.mpr ⟨by
        have inside := mem_seg.mp ((reach request.base).mpr ⟨low, .inr ordered⟩)
        omega, by omega⟩
    have reached := (reach _).mp last
    omega
  have segs : after.memSegs = front ++ expand request.base request.top seg :: back := by
    rw [result, List.append_assoc, List.singleton_append]
  -- Each segment is the expanded one or was there before.
  have each : ∀ other ∈ after.memSegs, other = expand request.base request.top seg ∨ other ∈ mem.memSegs := by
    intro other found
    rw [segs] at found
    rw [split]
    rcases List.mem_append.mp found with before | rest
    · exact .inr (List.mem_append_left _ before)
    · rcases List.mem_cons.mp rest with same | behind
      · exact .inl same
      · exact .inr (List.mem_append_right _ (List.mem_cons_of_mem _ behind))
  have grows : Grows mem request after := up_grows fits split holds (by rw [result]) reach
  constructor
  · constructor
    · intro other found
      rcases each other found with rfl | old
      · exact expanded
      · exact arranged.sound other old
    · rw [segs]
      exact sorted_replaced base (split ▸ arranged.sorted)
    · intro other found
      rcases each other found with rfl | old
      · exact top
      · exact arranged.within other old
  · constructor
    · rw [result]
    · intro addr above below
      rw [segs]
      exact covered_middle.mpr (.inl ((reach addr).mpr ⟨by omega, .inr below⟩))
    · exact grows.kept
    · intro other found
      rcases each other found with rfl | old
      · exact .inr ⟨seg, member, base⟩
      · exact .inr ⟨other, old, rfl⟩

theorem add_arranged (arranged : Arranged limit mem) (fits : request.Fits) (short : request.top ≤ limit)
    (starts : (∀ seg ∈ mem.memSegs, seg.baseAddr ≤ request.base) ∨ Covered mem.memSegs request.base) :
    ∃ base after, addRoundedMemSeg mem request.base request.size request.round = .ok (base, after) ∧
      Arranged limit after ∧ Added mem request after := by
  rcases first_hit (fun seg => seg.contains request.base || seg.contains request.top) mem.memSegs with
    fresh | ⟨front, seg, back, split, earlier, here⟩
  · obtain ⟨still, added⟩ := added_fresh arranged fits short starts fresh rfl
    exact ⟨_, _, add_fresh fits fresh, still, added⟩
  · have holds := hit_holds arranged fits starts split earlier here
    obtain ⟨still, added⟩ := added_expanded arranged fits short split holds rfl
    exact ⟨_, _, add_expanded fits split earlier here, still, added⟩

end Add

section Sizes
variable {mem : RevMem}

theorem valid_covered {vAddr : Nat} (covered : Covered mem.memSegs vAddr) :
    mem.isValidVirtAddr vAddr = true := by
  obtain ⟨seg, member, inside⟩ := covered
  have some : (mem.memSegs.any fun seg => seg.contains vAddr) = true :=
    List.any_eq_true.mpr ⟨seg, member, inside⟩
  rw [RevMem.isValidVirtAddr, if_pos some]

theorem sized_arranged {memSize stack : Nat} (size : mem.memSize = memSize) (top : mem.stacktop = stack)
    (arranged : Arranged memSize mem) (aligned : memSize % pageSize = 0) (small : memSize < 2 ^ 32)
    (low : stackSize ≤ stack) (high : stack ≤ memSize) : Sized mem where
  aligned := size ▸ aligned
  small := size ▸ small
  bounded := by
    intro vAddr valid
    rw [RevMem.isValidVirtAddr] at valid
    split at valid
    · rename_i held
      obtain ⟨seg, member, inside⟩ := List.any_eq_true.mp held
      obtain ⟨_, below⟩ := mem_seg.mp (show vAddr ∈ seg from inside)
      have within := arranged.within seg member
      omega
    · split at valid
      · exact of_decide_eq_true valid
      · rename_i _ under
        omega

theorem valid_stack (low : stackSize ≤ mem.stacktop) (small : mem.stacktop < 2 ^ 64) {vAddr : Nat}
    (above : mem.stacktop - stackSize ≤ vAddr) (below : vAddr < mem.memSize) :
    mem.isValidVirtAddr vAddr = true := by
  rw [RevMem.isValidVirtAddr]
  split
  · rfl
  · rw [if_pos (by omega)]
    exact decide_eq_true below

end Sizes
end RevCPU.Boot
