import RevCPU.Heap
/-!
The segments of a program: AddRoundedMemSeg of RevMem.cc, which RevLoader.cc calls for each program
header. A request that ends in a segment and does not start in it moves the segment down as a whole, since
the base is set before the size is computed from it.
-/
namespace RevCPU.Loader
open Mem Heap Regions

inductive LoaderFault where
  | roundUpSize
deriving Repr, DecidableEq

def roundedSegSize (segSize roundUpSize : Nat) : Nat :=
  let remainder := segSize % roundUpSize
  if remainder = 0 then segSize else (segSize + roundUpSize - remainder) % 2 ^ 64

/-- What becomes of the first segment that holds the base or the top of a request. -/
def expand (baseAddr newSegTopAddr : Nat) (seg : MemSegment) : MemSegment :=
  if seg.contains baseAddr then
    if seg.contains newSegTopAddr then seg
    else seg.setSize ((seg.size + (newSegTopAddr + 2 ^ 64 - seg.getTopAddr) % 2 ^ 64) % 2 ^ 64)
  else
    -- The base is read back after it is set, so the size grows by 0.
    let moved := seg.setBaseAddr baseAddr
    moved.setSize ((moved.size + (moved.baseAddr + 2 ^ 64 - baseAddr) % 2 ^ 64) % 2 ^ 64)

def addRoundedMemSeg (mem : RevMem) (baseAddr segSize roundUpSize : Nat) :
    Except LoaderFault (Nat × RevMem) :=
  if roundUpSize = 0 then .error .roundUpSize
  else
    let newSegTopAddr := (baseAddr + roundedSegSize segSize roundUpSize) % 2 ^ 64
    match replaceFirst (fun seg => seg.contains baseAddr || seg.contains newSegTopAddr)
        (fun seg => [expand baseAddr newSegTopAddr seg]) mem.memSegs with
    | some (seg, segs) =>
      .ok (if seg.contains baseAddr then seg.baseAddr else baseAddr, { mem with memSegs := segs })
    | none =>
      .ok (baseAddr, { mem with
        memSegs := mem.memSegs ++ [MemSegment.make baseAddr (roundedSegSize segSize roundUpSize)] })

structure Request where
  base : Nat
  size : Nat
  round : Nat
deriving Repr, DecidableEq

namespace Request

def top (request : Request) : Nat :=
  request.base + if request.size % request.round = 0 then request.size
    else request.size + request.round - request.size % request.round

/-- A request for some bytes, with a round size, that stays in the address space. -/
structure Fits (request : Request) : Prop where
  round : 0 < request.round
  size : 0 < request.size
  top : request.top < 2 ^ 64

end Request

/-- What a call should do: the range is in segments, and what was in segments is. -/
structure Grows (mem : RevMem) (request : Request) (after : RevMem) : Prop where
  range : ∀ addr, request.base ≤ addr → addr < request.base + request.size → Covered after.memSegs addr
  kept : ∀ addr, Covered mem.memSegs addr → Covered after.memSegs addr

/-- Where the first segment that holds the base or the top of the request holds only the top, the others hold
the addresses it leaves when it moves down and those of the range that it does not reach. -/
def Keeps (mem : RevMem) (request : Request) : Prop :=
  ∀ front seg back, mem.memSegs = front ++ seg :: back →
    (∀ other ∈ front, (other.contains request.base || other.contains request.top) = false) →
    seg.contains request.base = false → seg.contains request.top = true →
    (∀ addr, addr ∈ seg → request.base + seg.size ≤ addr → Covered (front ++ back) addr) ∧
      ∀ addr, request.base + seg.size ≤ addr → addr < request.base + request.size →
        Covered (front ++ back) addr

/-- Every call of a sequence returns, and it and the states around it are as told. -/
def Throughout (holds : RevMem → Request → RevMem → Prop) : RevMem → List Request → Prop
  | _, [] => True
  | mem, request :: rest =>
    ∃ base after, addRoundedMemSeg mem request.base request.size request.round = .ok (base, after) ∧
      holds mem request after ∧ Throughout holds after rest

section Expand
variable {seg : MemSegment} {base top : Nat}

theorem expand_up (sound : Sound seg) (holds : seg.contains base = true) (ordered : base < top)
    (fits : top < 2 ^ 64) : Sound (expand base top seg) ∧
      ∀ addr, addr ∈ expand base top seg ↔ seg.baseAddr ≤ addr ∧ (addr < seg.topAddr ∨ addr < top) := by
  have ⟨low, high⟩ := mem_seg.mp (holds : base ∈ seg)
  rw [expand, if_pos holds]
  split
  · rename_i both
    have ⟨_, above⟩ := mem_seg.mp (both : top ∈ seg)
    refine ⟨sound, fun addr => ?_⟩
    rw [mem_seg]
    omega
  · rename_i short
    have above : seg.topAddr ≤ top := by
      by_contra below
      exact short (mem_seg.mpr ⟨by omega, by omega⟩ : top ∈ seg)
    have ends := sound.top
    have size : (seg.size + (top + 2 ^ 64 - seg.getTopAddr) % 2 ^ 64) % 2 ^ 64 = top - seg.baseAddr := by
      rw [sound.getTopAddr]
      omega
    rw [size]
    have room : seg.baseAddr + (top - seg.baseAddr) < 2 ^ 64 := by omega
    refine ⟨setSize_sound room, fun addr => ?_⟩
    rw [mem_setSize room]
    omega

theorem base_below (without : seg.contains base = false) (holds : seg.contains top = true)
    (ordered : base < top) : base < seg.baseAddr := by
  have ⟨low, high⟩ := mem_seg.mp (holds : top ∈ seg)
  by_contra above
  have inside : base ∈ seg := mem_seg.mpr ⟨by omega, by omega⟩
  exact Bool.false_ne_true (without.symm.trans inside)

theorem expand_down (sound : Sound seg) (without : seg.contains base = false)
    (holds : seg.contains top = true) (ordered : base < top) : Sound (expand base top seg) ∧
      ∀ addr, addr ∈ expand base top seg ↔ base ≤ addr ∧ addr < base + seg.size := by
  have ⟨low, high⟩ := mem_seg.mp (holds : top ∈ seg)
  have below := base_below without holds ordered
  have ends := sound.top
  have fits := sound.fits
  have size : (seg.size + (base + 2 ^ 64 - base) % 2 ^ 64) % 2 ^ 64 = seg.size := by omega
  have room : (seg.setBaseAddr base).baseAddr + seg.size < 2 ^ 64 := by
    have moved : (seg.setBaseAddr base).baseAddr = base := rfl
    omega
  have result : expand base top seg = (seg.setBaseAddr base).setSize seg.size := by
    rw [expand, if_neg (by rw [without]; exact Bool.false_ne_true)]
    exact congrArg (fun count => (seg.setBaseAddr base).setSize count) size
  rw [result]
  exact ⟨setSize_sound room, fun addr => mem_setSize room⟩

end Expand
section Call
variable {mem : RevMem} {request : Request}

theorem rounded_top (fits : request.Fits) :
    (request.base + roundedSegSize request.size request.round) % 2 ^ 64 = request.top ∧
      request.base + roundedSegSize request.size request.round = request.top ∧
      request.base + request.size ≤ request.top := by
  have short := fits.top
  have small := Nat.mod_lt request.size fits.round
  rw [Request.top] at short ⊢
  rw [roundedSegSize]
  split at short
  · rename_i exactly
    simp only [if_pos exactly, true_and]
    omega
  · rename_i partly
    simp only [if_neg partly]
    omega

theorem top_above (fits : request.Fits) : request.base < request.top := by
  have ⟨_, _, above⟩ := rounded_top fits
  have some := fits.size
  omega

theorem add_fresh (fits : request.Fits)
    (fresh : ∀ seg ∈ mem.memSegs, (seg.contains request.base || seg.contains request.top) = false) :
    addRoundedMemSeg mem request.base request.size request.round = .ok (request.base, { mem with
      memSegs := mem.memSegs ++
        [MemSegment.make request.base (roundedSegSize request.size request.round)] }) := by
  have absent : (mem.memSegs.find? fun seg => seg.contains request.base || seg.contains request.top) = none :=
    List.find?_eq_none.mpr fun seg member => by rw [fresh seg member]; exact Bool.false_ne_true
  rw [addRoundedMemSeg, if_neg (Nat.ne_of_gt fits.round)]
  simp only [(rounded_top fits).1, replaceFirst_eq_none.mpr absent]

theorem add_expanded (fits : request.Fits) {front back : List MemSegment} {seg : MemSegment}
    (split : mem.memSegs = front ++ seg :: back)
    (earlier : ∀ other ∈ front, (other.contains request.base || other.contains request.top) = false)
    (here : (seg.contains request.base || seg.contains request.top) = true) :
    addRoundedMemSeg mem request.base request.size request.round =
      .ok (if seg.contains request.base then seg.baseAddr else request.base, { mem with
        memSegs := front ++ [expand request.base request.top seg] ++ back }) := by
  have replaced := replaceFirst_first (fun seg => [expand request.base request.top seg]) back earlier here
  rw [addRoundedMemSeg, if_neg (Nat.ne_of_gt fits.round)]
  simp only [(rounded_top fits).1, split, replaced]

theorem first_hit (hit : MemSegment → Bool) (segs : List MemSegment) :
    (∀ seg ∈ segs, hit seg = false) ∨ ∃ front seg back, segs = front ++ seg :: back ∧
      (∀ other ∈ front, hit other = false) ∧ hit seg = true := by
  cases found : segs.find? hit with
  | none => exact .inl fun seg member => Bool.eq_false_iff.mpr (List.find?_eq_none.mp found seg member)
  | some seg =>
    have ⟨here, front, back, split, earlier⟩ := List.find?_eq_some_iff_append.mp found
    exact .inr ⟨front, seg, back, split, fun other member => by simpa using earlier other member, here⟩

theorem grows_down_iff {front back : List MemSegment} {seg : MemSegment} {after : RevMem}
    (split : mem.memSegs = front ++ seg :: back)
    (result : after.memSegs = front ++ [expand request.base request.top seg] ++ back)
    (within : ∀ addr, addr ∈ expand request.base request.top seg ↔
      request.base ≤ addr ∧ addr < request.base + seg.size)
    (above : request.base < seg.baseAddr) :
    Grows mem request after ↔
      (∀ addr, addr ∈ seg → request.base + seg.size ≤ addr → Covered (front ++ back) addr) ∧
        ∀ addr, request.base + seg.size ≤ addr → addr < request.base + request.size →
          Covered (front ++ back) addr := by
  have now : ∀ addr, Covered after.memSegs addr ↔
      (request.base ≤ addr ∧ addr < request.base + seg.size) ∨ Covered (front ++ back) addr := by
    intro addr
    rw [result, List.append_assoc, List.singleton_append, covered_middle, within]
  constructor
  · rintro ⟨range, kept⟩
    constructor
    · intro addr member beyond
      rcases (now addr).mp (kept addr (split ▸ covered_middle.mpr (.inl member))) with moved | rest
      · omega
      · exact rest
    · intro addr beyond inside
      rcases (now addr).mp (range addr (by omega) inside) with moved | rest
      · omega
      · exact rest
  · rintro ⟨left, missed⟩
    constructor
    · intro addr low high
      rw [now]
      rcases Nat.lt_or_ge addr (request.base + seg.size) with near | far
      · exact .inl ⟨low, near⟩
      · exact .inr (missed addr far high)
    · intro addr covered
      rw [split, covered_middle] at covered
      rw [now]
      rcases covered with member | rest
      · have ⟨low, _⟩ := mem_seg.mp member
        rcases Nat.lt_or_ge addr (request.base + seg.size) with near | far
        · exact .inl ⟨by omega, near⟩
        · exact .inr (left addr member far)
      · exact .inr rest

theorem first_unique {hit : MemSegment → Bool} {front back front' back' : List MemSegment}
    {seg seg' : MemSegment} (same : front ++ seg :: back = front' ++ seg' :: back')
    (earlier : ∀ other ∈ front, hit other = false) (here : hit seg = true)
    (earlier' : ∀ other ∈ front', hit other = false) (here' : hit seg' = true) :
    seg = seg' ∧ front ++ back = front' ++ back' := by
  have one := replaceFirst_first (fun _ => []) back earlier here
  have two := replaceFirst_first (fun _ => []) back' earlier' here'
  rw [same, two, List.append_nil, List.append_nil] at one
  have ⟨first, rest⟩ := Prod.mk.inj (Option.some.inj one)
  exact ⟨first.symm, rest.symm⟩

theorem fresh_grows {after : RevMem} (fits : request.Fits) (result : after.memSegs = mem.memSegs ++
    [MemSegment.make request.base (roundedSegSize request.size request.round)]) :
    Grows mem request after where
  range := by
    intro addr low high
    have ⟨_, whole, within⟩ := rounded_top fits
    have short := fits.top
    have new : addr ∈ MemSegment.make request.base (roundedSegSize request.size request.round) :=
      (mem_make (by omega)).mpr ⟨low, by omega⟩
    rw [result]
    exact covered_append.mpr (.inr (covered_singleton.mpr new))
  kept := by
    intro addr covered
    rw [result]
    exact covered_append.mpr (.inl covered)

theorem up_grows {front back : List MemSegment} {seg : MemSegment} {after : RevMem} (fits : request.Fits)
    (split : mem.memSegs = front ++ seg :: back) (starts : seg.contains request.base = true)
    (result : after.memSegs = front ++ [expand request.base request.top seg] ++ back)
    (reach : ∀ addr, addr ∈ expand request.base request.top seg ↔
      seg.baseAddr ≤ addr ∧ (addr < seg.topAddr ∨ addr < request.top)) : Grows mem request after := by
  have now : ∀ addr, Covered after.memSegs addr ↔
      (seg.baseAddr ≤ addr ∧ (addr < seg.topAddr ∨ addr < request.top)) ∨ Covered (front ++ back) addr := by
    intro addr
    rw [result, List.append_assoc, List.singleton_append, covered_middle, reach]
  have ⟨_, _, within⟩ := rounded_top fits
  have ⟨low, _⟩ := mem_seg.mp (starts : request.base ∈ seg)
  constructor
  · intro addr above inside
    rw [now]
    exact .inl ⟨by omega, .inr (by omega)⟩
  · intro addr covered
    rw [split, covered_middle] at covered
    rw [now]
    rcases covered with member | rest
    · have ⟨above, inside⟩ := mem_seg.mp member
      exact .inl ⟨above, .inl inside⟩
    · exact .inr rest

/-- A call on sound segments: they stay sound, and they grow just where the others hold what is lost. -/
theorem add_grows_iff (sound : ∀ seg ∈ mem.memSegs, Sound seg) (fits : request.Fits) :
    ∃ base after, addRoundedMemSeg mem request.base request.size request.round = .ok (base, after) ∧
      (∀ seg ∈ after.memSegs, Sound seg) ∧ (Grows mem request after ↔ Keeps mem request) := by
  have ⟨_, whole, _⟩ := rounded_top fits
  have ordered := top_above fits
  have short := fits.top
  rcases first_hit (fun seg => seg.contains request.base || seg.contains request.top) mem.memSegs with
    fresh | ⟨front, seg, back, split, earlier, here⟩
  · have keeps : Keeps mem request := by
      intro _ seg _ split _ _ top
      have nothing := fresh seg (split ▸ List.mem_append_right _ List.mem_cons_self)
      rw [top, Bool.or_true] at nothing
      cases nothing
    refine ⟨_, _, add_fresh fits fresh, fun seg member => ?_, iff_of_true (fresh_grows fits rfl) keeps⟩
    rcases List.mem_append.mp member with before | new
    · exact sound seg before
    · rw [List.mem_singleton.mp new]
      exact make_sound (by omega)
  · have held := sound seg (split ▸ List.mem_append_right _ List.mem_cons_self)
    have stay : Sound (expand request.base request.top seg) →
        ∀ other ∈ front ++ [expand request.base request.top seg] ++ back, Sound other := by
      intro expanded other member
      rw [List.append_assoc, List.singleton_append] at member
      rcases List.mem_cons.mp (List.perm_middle.mem_iff.mp member) with same | rest
      · rw [same]
        exact expanded
      · apply sound other
        rw [split]
        exact List.perm_middle.mem_iff.mpr (List.mem_cons_of_mem _ rest)
    -- Another way to split the list at its first such segment is the same one.
    have unique : ∀ {front' seg' back'}, mem.memSegs = front' ++ seg' :: back' →
        (∀ other ∈ front', (other.contains request.base || other.contains request.top) = false) →
        seg'.contains request.top = true → seg = seg' ∧ front ++ back = front' ++ back' :=
      fun split' earlier' top => first_unique (split.symm.trans split') earlier here earlier'
        (by rw [top, Bool.or_true])
    cases starts : seg.contains request.base with
    | true =>
      have ⟨expanded, reach⟩ := expand_up held starts ordered short
      have keeps : Keeps mem request := by
        intro front' seg' back' split' earlier' without top
        have ⟨same, _⟩ := unique split' earlier' top
        rw [← same, starts] at without
        cases without
      exact ⟨_, _, add_expanded fits split earlier here, stay expanded,
        iff_of_true (up_grows fits split starts rfl reach) keeps⟩
    | false =>
      have top : seg.contains request.top = true := by
        rw [starts, Bool.false_or] at here
        exact here
      have ⟨expanded, within⟩ := expand_down held starts top ordered
      have above := base_below starts top ordered
      refine ⟨_, _, add_expanded fits split earlier here, stay expanded,
        (grows_down_iff split rfl within above).trans ?_⟩
      constructor
      · intro lost front' seg' back' split' earlier' without top'
        have ⟨same, rest⟩ := unique split' earlier' top'
        rw [← same, ← rest]
        exact lost
      · exact fun keeps => keeps front seg back split earlier starts top

/-- In every sequence of calls, each one returns, and it grows the segments just where the others hold what a
segment loses that is moved down. -/
theorem calls_grow_iff {requests : List Request} (sound : ∀ seg ∈ mem.memSegs, Sound seg)
    (fits : ∀ request ∈ requests, request.Fits) :
    Throughout (fun mem request after => Grows mem request after ↔ Keeps mem request) mem requests := by
  induction requests generalizing mem with
  | nil => trivial
  | cons request rest ih =>
    have ⟨base, after, called, still, same⟩ := add_grows_iff sound (fits request List.mem_cons_self)
    have later := ih still fun other member => fits other (List.mem_cons_of_mem request member)
    exact ⟨base, after, called, same, later⟩

end Call
section Small

def start : RevMem := RevMem.new 2097152 16 1 0

def withSegs (segs : List MemSegment) : RevMem := { start with memSegs := segs }

theorem start_sound : ∀ seg ∈ start.memSegs, Sound seg := fun _ member => absurd member List.not_mem_nil

theorem calls_grow_iff_two :
    Throughout Grows start [⟨8192, 256, 256⟩, ⟨8200, 512, 256⟩] ∧
      Throughout (fun mem request after => Grows mem request after ↔ Keeps mem request) start
        [⟨8192, 256, 256⟩, ⟨8200, 512, 256⟩] := by
  have fits : ∀ request ∈ [⟨8192, 256, 256⟩, (⟨8200, 512, 256⟩ : Request)], request.Fits := by
    intro request member
    rcases List.mem_pair.mp member with same | same
    · rw [same]
      exact ⟨by decide, by decide, by decide⟩
    · rw [same]
      exact ⟨by decide, by decide, by decide⟩
  have each := calls_grow_iff start_sound fits
  refine ⟨?_, each⟩
  have ⟨_, one, called, first, _, two, called', second, _⟩ := each
  have same : one = withSegs [⟨8192, 256, 8448⟩] := by
    have result : addRoundedMemSeg start 8192 256 256 = .ok (8192, withSegs [⟨8192, 256, 8448⟩]) := rfl
    rw [result] at called
    cases called
    rfl
  subst same
  refine ⟨_, _, called, first.mpr ?_, _, _, called', second.mpr ?_, trivial⟩
  · intro front seg back split
    exact absurd split.symm (List.append_ne_nil_of_right_ne_nil front (List.cons_ne_nil seg back))
  · intro front seg back split _ without
    have member : seg ∈ [(⟨8192, 256, 8448⟩ : MemSegment)] := by
      have here : seg ∈ (withSegs [⟨8192, 256, 8448⟩]).memSegs := by
        rw [split]
        exact List.mem_append_right _ List.mem_cons_self
      exact here
    rw [List.mem_singleton.mp member] at without
    exact absurd without (by decide)

/-- A request ends in a segment that lies above its base: the segment leaves its place, and does not reach. -/
theorem moved_down_loses :
    addRoundedMemSeg start 8192 256 256 = .ok (8192, withSegs [⟨8192, 256, 8448⟩]) ∧
      addRoundedMemSeg (withSegs [⟨8192, 256, 8448⟩]) 4096 4224 128 =
        .ok (4096, withSegs [⟨4096, 256, 4352⟩]) ∧
      Covered [(⟨8192, 256, 8448⟩ : MemSegment)] 8192 ∧ ¬ Covered [(⟨4096, 256, 4352⟩ : MemSegment)] 8192 ∧
      ¬ Covered [(⟨4096, 256, 4352⟩ : MemSegment)] 8000 ∧
      ¬ Throughout Grows start [⟨8192, 256, 256⟩, ⟨4096, 4224, 128⟩] := by
  have one : addRoundedMemSeg start 8192 256 256 = .ok (8192, withSegs [⟨8192, 256, 8448⟩]) := rfl
  have two : addRoundedMemSeg (withSegs [⟨8192, 256, 8448⟩]) 4096 4224 128 =
      .ok (4096, withSegs [⟨4096, 256, 4352⟩]) := rfl
  have before : Covered [(⟨8192, 256, 8448⟩ : MemSegment)] 8192 :=
    covered_singleton.mpr (mem_seg.mpr (by decide))
  have after : ¬ Covered [(⟨4096, 256, 4352⟩ : MemSegment)] 8192 :=
    fun covered => absurd (mem_seg.mp (covered_singleton.mp covered)) (by decide)
  have short : ¬ Covered [(⟨4096, 256, 4352⟩ : MemSegment)] 8000 :=
    fun covered => absurd (mem_seg.mp (covered_singleton.mp covered)) (by decide)
  refine ⟨one, two, before, after, short, ?_⟩
  rintro ⟨_, _, called, _, _, _, called', grows, _⟩
  rw [one] at called
  cases called
  rw [two] at called'
  cases called'
  exact after (grows.kept 8192 before)

end Small
end RevCPU.Loader
