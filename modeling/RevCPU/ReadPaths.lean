import RevCPU.PanRun
/-!
ReadMem without a hart beside ReadMem with one. Both split the access in the same way; the second loop of
the first one stores every byte in the same place, so that only the last of them stays.
-/
namespace RevCPU.ReadPaths
open Mem MemRefine Pan FirstTouch

section Copies
variable (mem : RevMem) (base cur : Nat) (data : Buffer)

/-- The buffer after `data[cur+i] = physMem[base+i]`. -/
def spread (count : Nat) : Buffer := fun index =>
  if cur ≤ index ∧ index < cur + count then mem.physMem (base + (index - cur)) else data index

/-- The buffer after `data[cur] = physMem[base+i]`. -/
def piled (count : Nat) : Buffer :=
  if count = 0 then data else Function.update data cur (mem.physMem (base + (count - 1)))

theorem spread_succ (count : Nat) : spread mem base cur data (count + 1) =
    Function.update (spread mem base cur data count) (cur + count) (mem.physMem (base + count)) := by
  funext index
  rw [Function.update_apply, spread, spread]
  by_cases last : index = cur + count
  · rw [if_pos last, if_pos (by omega), last, Nat.add_sub_cancel_left]
  · rw [if_neg last]
    by_cases earlier : cur ≤ index ∧ index < cur + count
    · rw [if_pos earlier, if_pos (by omega)]
    · rw [if_neg earlier, if_neg (by omega)]

theorem piled_succ (count : Nat) : piled mem base cur data (count + 1) =
    Function.update (piled mem base cur data count) cur (mem.physMem (base + count)) := by
  rw [piled, if_neg (Nat.succ_ne_zero count), Nat.add_sub_cancel, piled]
  split
  · rfl
  · rw [Function.update_idem]

theorem copies_end (count : Nat) :
    (∃ fault, mem.copyOut base cur data count = .error fault ∧
      mem.copyLast base cur data count = .error fault ∧
      ¬ (count = 0 ∨ base + count ≤ mem.memSize)) ∨
    (mem.copyOut base cur data count = .ok (spread mem base cur data count) ∧
      mem.copyLast base cur data count = .ok (piled mem base cur data count) ∧
      (count = 0 ∨ base + count ≤ mem.memSize)) := by
  induction count with
  | zero =>
    have nothing : spread mem base cur data 0 = data := by
      funext index
      rw [spread, if_neg (by omega)]
    rw [nothing]
    exact .inr ⟨rfl, rfl, .inl rfl⟩
  | succ count ih =>
    rw [RevMem.copyOut, RevMem.copyLast]
    rcases ih with ⟨fault, spreads, piles, beyond⟩ | ⟨spreads, piles, _⟩
    · rw [spreads, piles]
      exact .inl ⟨fault, rfl, rfl, by omega⟩
    · rw [spreads, piles]
      dsimp only
      by_cases room : base + count < mem.memSize
      · rw [if_pos room, if_pos room, spread_succ, piled_succ]
        exact .inr ⟨rfl, rfl, .inr room⟩
      · rw [if_neg room, if_neg room]
        exact .inl ⟨_, rfl, rfl, by omega⟩

end Copies

/-- Both reads end with the same memory and the same bytes, or with the same fault. -/
def Agree (mem : RevMem) (hart addr len : Nat) (target : Buffer) (flags : Nat) : Prop :=
  match mem.readMem hart addr len target flags, mem.readMemOld addr len target with
  | .ok (reply, after), .ok (buffer, after') =>
    (∀ index < len, buffer index = reply.target index) ∧ after' = after
  | .error one, .error two => one = two
  | _, _ => False

/-- Of the bytes beyond the first page, the first one is also the last, and the others are in the buffer
already. -/
def TailAgrees (mem : RevMem) (addr len : Nat) (target : Buffer) : Prop :=
  ∀ extent after, mem.locate addr len = .ok (extent, after) →
    extent.count = 0 ∨ extent.physAddr + extent.count ≤ after.memSize →
    extent.span = 0 ∨ extent.adjPhysAddr + extent.span ≤ after.memSize →
    ∀ step < extent.span, extent.count + step < len →
      (if step = 0 then after.physMem (extent.adjPhysAddr + (extent.span - 1))
        else target (extent.count + step)) = after.physMem (extent.adjPhysAddr + step)

section Paths
variable {mem : RevMem} {hart addr len : Nat} {target : Buffer} {flags : Nat}

theorem spread_piled_iff {base count span : Nat} {first : Buffer}
    (kept : ∀ step, first (count + step) = target (count + step)) :
    (∀ index < len, piled mem base count first span index = spread mem base count first span index) ↔
      ∀ step < span, count + step < len →
        (if step = 0 then mem.physMem (base + (span - 1)) else target (count + step)) =
          mem.physMem (base + step) := by
  constructor
  · intro same step inside bound
    have byte := same (count + step) bound
    rw [piled, if_neg (by omega), spread, if_pos (by omega), Function.update_apply,
      Nat.add_sub_cancel_left, kept] at byte
    by_cases start : step = 0
    · rw [if_pos (by omega)] at byte
      rw [if_pos start]
      exact byte
    · rw [if_neg (by omega)] at byte
      rw [if_neg start]
      exact byte
  · intro tail index bound
    rw [piled, spread]
    by_cases inside : count ≤ index ∧ index < count + span
    · have ⟨step, place⟩ := Nat.exists_eq_add_of_le inside.1
      have byte := tail step (by omega) (by omega)
      rw [if_pos inside, if_neg (by omega), Function.update_apply, place, Nat.add_sub_cancel_left, kept,
        ← byte]
      by_cases start : step = 0
      · rw [if_pos start, if_pos (by omega)]
      · rw [if_neg start, if_neg (by omega)]
    · rw [if_neg inside]
      split
      · rfl
      · rw [Function.update_of_ne (by omega)]

theorem agree_iff : Agree mem hart addr len target flags ↔ TailAgrees mem addr len target := by
  rw [Agree, RevMem.readMem, RevMem.readMemOld]
  cases located : mem.locate addr len with
  | error fault =>
    refine ⟨fun _ extent after found => ?_, fun _ => rfl⟩
    rw [located] at found
    cases found
  | ok result =>
    rcases result with ⟨extent, after⟩
    have split : TailAgrees mem addr len target ↔
        (extent.count = 0 ∨ extent.physAddr + extent.count ≤ after.memSize →
          extent.span = 0 ∨ extent.adjPhysAddr + extent.span ≤ after.memSize →
          ∀ step < extent.span, extent.count + step < len →
            (if step = 0 then after.physMem (extent.adjPhysAddr + (extent.span - 1))
              else target (extent.count + step)) = after.physMem (extent.adjPhysAddr + step)) := by
      constructor
      · exact fun agrees => agrees extent after located
      · intro agrees extent' after' found
        rw [located] at found
        cases found
        exact agrees
    rw [split]
    dsimp only
    rcases copies_end after extent.physAddr 0 target extent.count with
      ⟨fault, head, _, beyond⟩ | ⟨head, _, inside⟩
    · rw [head]
      exact ⟨fun _ inside => absurd inside beyond, fun _ => rfl⟩
    · rw [head]
      dsimp only
      rcases copies_end after extent.adjPhysAddr extent.count
          (spread after extent.physAddr 0 target extent.count) extent.span with
        ⟨fault, spreads, piles, beyond'⟩ | ⟨spreads, piles, inside'⟩
      · rw [spreads, piles]
        exact ⟨fun _ _ inside => absurd inside beyond', fun _ => rfl⟩
      · have kept : ∀ step, spread after extent.physAddr 0 target extent.count (extent.count + step) =
            target (extent.count + step) := fun step => by rw [spread, if_neg (by omega)]
        rw [spreads, piles]
        dsimp only
        rw [spread_piled_iff kept]
        exact ⟨fun agrees _ _ => agrees.1, fun agrees => ⟨agrees inside inside', rfl⟩⟩

/-- The bytes from an address to the end of its page. -/
def pageRest (addr : Nat) : Nat := pageSize - addr % pageSize

theorem tailAgrees_usable (usable : Usable mem addr len) : TailAgrees mem addr len target ↔
    len ≤ pageRest addr + 1 ∨
      (byteAt mem (addr + (len - 1)) = byteAt mem (addr + pageRest addr) ∧
        ∀ step < len, pageRest addr < step → target step = byteAt mem (addr + step)) := by
  have ⟨extent, after, located, unseen, covers, split⟩ :=
    locate_split usable.sized usable.coherent usable.cached usable.short usable.touchable
  have total := covers.total
  have rest : 0 < pageRest addr := by
    simp only [pageRest, pageSize]
    omega
  have split : extent.count = min len (pageRest addr) := split
  have byte : ∀ step < extent.span,
      after.physMem (extent.adjPhysAddr + step) = byteAt mem (addr + (extent.count + step)) := by
    intro step inside
    have cell := covers.second step inside
    rw [← unseen.view, byteAt, ← Nat.add_assoc, view_placed cell]
  have room : ∀ {start base count : Nat}, (∀ step < count,
      place after.pageMap pageSize (start + step) = some (base + step)) →
      count = 0 ∨ base + count ≤ after.memSize := by
    intro start base count behind
    rcases Nat.eq_zero_or_pos count with none | some
    · exact .inl none
    · have last := place_lt_memSize unseen.coherent (behind (count - 1) (by omega))
      exact .inr (by omega)
  have head := room covers.first
  have tail := room covers.second
  constructor
  · intro agrees
    have same := agrees extent after located head tail
    by_cases short : len ≤ pageRest addr + 1
    · exact .inl short
    · right
      have count : extent.count = pageRest addr := by omega
      constructor
      · have first := same 0 (by omega) (by omega)
        rw [if_pos rfl, byte _ (by omega), byte _ (by omega)] at first
        have last : extent.count + (extent.span - 1) = len - 1 := by omega
        rw [last, Nat.add_zero, count] at first
        exact first
      · intro step inside beyond
        have later := same (step - extent.count) (by omega) (by omega)
        rw [if_neg (by omega), byte _ (by omega)] at later
        have place : extent.count + (step - extent.count) = step := by omega
        rw [place] at later
        exact later
  · intro condition extent' after' found _ _ step inside bound
    rw [located] at found
    cases found
    rcases condition with short | ⟨last, held⟩
    · have only : step = 0 := by omega
      have one : extent.span = 1 := by omega
      rw [only, if_pos rfl, one]
    · rw [byte step inside]
      by_cases start : step = 0
      · rw [if_pos start, byte _ (by omega)]
        have place : extent.count + (extent.span - 1) = len - 1 := by omega
        have count : extent.count = pageRest addr := by omega
        rw [place, last, start, Nat.add_zero, count]
      · rw [if_neg start]
        exact held _ bound (by omega)

/-- The two reads agree where the access ends with the first byte of the next page, or before. Beyond that
they agree by the chance that the buffer holds the bytes between and that the last one is the first. -/
theorem reads_agree_iff (mem : RevMem) (hart addr len : Nat) (target : Buffer) (flags : Nat) :
    (Agree mem hart addr len target flags ↔ TailAgrees mem addr len target) ∧
    (Usable mem addr len → (Agree mem hart addr len target flags ↔
      len ≤ pageRest addr + 1 ∨
        (byteAt mem (addr + (len - 1)) = byteAt mem (addr + pageRest addr) ∧
          ∀ step < len, pageRest addr < step → target step = byteAt mem (addr + step)))) :=
  ⟨agree_iff, fun usable => agree_iff.trans (tailAgrees_usable usable)⟩

end Paths

section Stored

/-- Four bytes over the end of a page of the stack, 1 to 4. -/
def fourBytes : RevMem :=
  match (RevMem.new 2097152 16 1 0).storeLocal 1310718 4 fun index => BitVec.ofNat 8 (index + 1) with
  | .ok mem => mem
  | .error _ => RevMem.new 2097152 16 1 0

theorem fourBytes_stored : Coherent fourBytes ∧ layout fourBytes = layout (RevMem.new 2097152 16 1 0) ∧
    ∀ step < 4, byteAt fourBytes (1310718 + step) = BitVec.ofNat 8 (step + 1) := by
  have valid : Touchable (RevMem.new 2097152 16 1 0) 1310718 4 := by
    apply touchable_of_valid (by decide)
    intro step inside
    exact (valid_stack_only 16 _).mpr (by omega)
  have ⟨after, stored, coherent, same, view⟩ :=
    storeLocal_valid (sized_stack_only 16) (untouched_new _ _ _ _).coherent (by decide) (by decide) valid
      fun index => BitVec.ofNat 8 (index + 1)
  have named : fourBytes = after := by
    rw [fourBytes, stored]
  rw [named]
  refine ⟨coherent, same, fun step inside => ?_⟩
  rw [view, flatStore, if_pos (by omega), Nat.add_sub_cancel_left]

theorem fourBytes_usable {len : Nat} (nonempty : 1 ≤ len) (short : len ≤ 4) :
    Usable fourBytes 1310718 len := by
  have ⟨coherent, same, _⟩ := fourBytes_stored
  refine ⟨(sized_stack_only 16).of_layout same, coherent, ?_, ?_, ?_⟩
  · rw [(layout_fields same).2]
    decide
  · rw [pageSize]
    omega
  · apply touchable_of_valid nonempty
    intro step inside
    rw [isValidVirtAddr_layout same]
    exact (valid_stack_only 16 _).mpr (by omega)

-- One byte beyond the page is read alike, whatever the buffer held.
theorem reads_agree_iff_three : Agree fourBytes 0 1310718 3 (fun _ => 0xff) 0 :=
  ((reads_agree_iff fourBytes 0 1310718 3 (fun _ => 0xff) 0).2
    (fourBytes_usable (by decide) (by decide))).mpr (.inl (by decide))

-- Of two bytes beyond the page the second takes the place of the first.
theorem four_bytes_differ :
    (∀ step < 4, fourBytes.isValidVirtAddr (1310718 + step) = true) ∧
      (∃ reply after, fourBytes.readMem 0 1310718 4 (fun _ => 0xff) 0 = .ok (reply, after) ∧
        (List.range 4).map reply.target = [1, 2, 3, 4]) ∧
      (∃ buffer after, fourBytes.readMemOld 1310718 4 (fun _ => 0xff) = .ok (buffer, after) ∧
        (List.range 4).map buffer = [1, 2, 4, 0xff]) ∧
      ¬ Agree fourBytes 0 1310718 4 (fun _ => 0xff) 0 := by
  have usable : Usable fourBytes 1310718 4 := fourBytes_usable (by decide) (Nat.le_refl 4)
  obtain ⟨_, same, bytes⟩ := fourBytes_stored
  refine ⟨fun step inside => ?_, ?_, ?_, fun agrees => ?_⟩
  · rw [isValidVirtAddr_layout same]
    exact (valid_stack_only 16 _).mpr (by omega)
  · obtain ⟨after, read, _⟩ := readMem_valid usable.sized usable.coherent usable.cached usable.short
      usable.touchable 0 (fun _ => 0xff) 0
    refine ⟨_, after, read, ?_⟩
    have held : ∀ index ∈ List.range 4, flatLoad (byteAt fourBytes) 1310718 4 (fun _ => 0xff) index =
        BitVec.ofNat 8 (index + 1) := by
      intro index member
      have inside := List.mem_range.mp member
      rw [flatLoad, if_pos inside, bytes index inside]
    exact (List.map_congr_left held).trans (by decide)
  · obtain ⟨after, read, _⟩ := readMemOld_valid usable fun _ => 0xff
    refine ⟨_, after, read, ?_⟩
    have held : ∀ index ∈ List.range 4, loadOld (byteAt fourBytes) 1310718 4 (fun _ => 0xff) index =
        if index = 2 then 4 else if index < 2 then BitVec.ofNat 8 (index + 1) else 0xff := by
      intro index member
      have inside := List.mem_range.mp member
      have count : min 4 (pageSize - 1310718 % pageSize) = 2 := by decide
      have last : byteAt fourBytes (1310718 + (4 - 1)) = 4 := bytes 3 (by decide)
      rw [loadOld, count, if_neg (by decide), Function.update_apply, last, flatLoad]
      split_ifs
      · rfl
      · exact bytes index inside
      · rfl
    exact (List.map_congr_left held).trans (by decide)
  · rcases (tailAgrees_usable usable).mp (agree_iff.mp agrees) with short | ⟨last, _⟩
    · exact absurd short (by decide)
    · have first := bytes 2 (by decide)
      have second := bytes 3 (by decide)
      have place : 1310718 + pageRest 1310718 = 1310718 + 2 := by decide
      rw [place, first, second] at last
      exact absurd last (by decide)

end Stored
end RevCPU.ReadPaths
