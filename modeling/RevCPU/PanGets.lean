import RevCPU.PanPairing
/-!
The delivery of a get's result by PANHandleSuccess. Its loop over the outstanding gets assigns the tag
where it means to compare it and erases while it walks, so what it does depends on how many gets are
outstanding and hardly on their tags.
-/
namespace RevCPU.Pan
open Mem MemRefine

/-- The response delivers its get: the one with its tag is removed and the bytes of its range become
those of the packet; without such a get nothing changes. -/
def Exact (cpu : PanCPU) (event : PanNicEvent) (gets : List TrackGet) (mem : RevMem) : Prop :=
  match cpu.trackGets.find? fun get => get.tag == event.tag with
  | none => gets = cpu.trackGets ∧ ∀ vAddr, byteAt mem vAddr = byteAt cpu.mem vAddr
  | some get => gets = cpu.trackGets.erase get ∧ ∀ vAddr, byteAt mem vAddr =
      flatStore (byteAt cpu.mem) get.addr.toNat get.size.toNat (bufferOf event.data) vAddr

/-- The loop over the outstanding gets delivers, and the handler goes on to tell the host thread and to
drop the tag. -/
def Delivers (cpu : PanCPU) (event : PanNicEvent) (fresh : Nat → Buffer) : Prop :=
  ∃ gets mem, PanCPU.deliverGets cpu.mem event.tag fresh [] cpu.trackGets = .ok (gets, mem) ∧
    Exact cpu event gets mem ∧ cpu.panHandleSuccess event fresh =
      { cpu with mem := mem, trackGets := gets }.closeTag event entryDoneSuccess fun left =>
        fresh (cpu.trackGets.length + left)

/-- What makes the loop end as it should: no get is outstanding, or the packet's own get is the first
of at most two, the tag is not 0, and the buffer that is written without being filled happens to hold
the packet's data. -/
def Lucky (cpu : PanCPU) (event : PanNicEvent) (fresh : Nat → Buffer) : Prop :=
  cpu.trackGets = [] ∨ event.tag ≠ 0 ∧ ∃ get others, cpu.trackGets = get :: others ∧
    others.length ≤ 1 ∧ get.tag = event.tag ∧
    ∀ index, index < get.size.toNat → fresh others.length index = bufferOf event.data index

section Loop
variable {mem after : RevMem} {tag : BitVec 8} {fresh : Nat → Buffer}
  {before gets result : List TrackGet}

theorem deliverGets_zero : PanCPU.deliverGets mem 0 fresh before gets =
    .ok (before ++ gets.map fun get => { get with tag := 0 }, mem) := by
  induction gets generalizing before with
  | nil => simp [PanCPU.deliverGets]
  | cons get rest ih =>
    rw [PanCPU.deliverGets, if_pos rfl, ih, List.append_assoc]
    rfl

-- Every turn removes one get and keeps the next; an odd one at the end is removed only if it is alone.
theorem deliverGets_length (positive : tag ≠ 0) : ∀ (gets before : List TrackGet) (mem : RevMem),
    PanCPU.deliverGets mem tag fresh before gets = .ok (result, after) →
    2 * result.length = 2 * before.length + gets.length ∨
      before = [] ∧ gets.length = 1 ∧ result = []
  | [], before, mem, walked => by
    cases walked
    exact .inl rfl
  | [get], before, mem, walked => by
    rw [PanCPU.deliverGets, if_neg positive] at walked
    split at walked
    · cases walked
    · dsimp only at walked
      split at walked
      · rename_i alone
        cases walked
        exact .inr ⟨alone, rfl, rfl⟩
      · cases walked
  | get :: next :: rest, before, mem, walked => by
    rw [PanCPU.deliverGets, if_neg positive] at walked
    split at walked
    · cases walked
    · rcases deliverGets_length positive rest (before ++ [next]) _ walked with even | ⟨filled, -⟩
      · left
        simp only [List.length_append, List.length_cons, List.length_nil] at even ⊢
        omega
      · simp at filled

theorem deliverGets_few {get : TrackGet} (positive : tag ≠ 0) (few : gets.length ≤ 1)
    (written : mem.writeMem 0 get.addr.toNat get.size.toNat (fresh gets.length) = .ok after) :
    PanCPU.deliverGets mem tag fresh [] (get :: gets) = .ok (gets, after) := by
  rw [PanCPU.deliverGets, if_neg positive, written]
  match gets with
  | [] => rfl
  | [next] => rfl
  | _ :: _ :: _ => simp at few

end Loop

section Delivers
variable {cpu : PanCPU} {event : PanNicEvent} {fresh : Nat → Buffer}

theorem panHandleSuccess_loop (tracked : (event.tag, event.src) ∈ cpu.trackTags)
    {gets : List TrackGet} {mem : RevMem}
    (walked : PanCPU.deliverGets cpu.mem event.tag fresh [] cpu.trackGets = .ok (gets, mem)) :
    cpu.panHandleSuccess event fresh =
      { cpu with mem := mem, trackGets := gets }.closeTag event entryDoneSuccess fun left =>
        fresh (cpu.trackGets.length + left) := by
  rw [PanCPU.panHandleSuccess, if_neg (by simpa using tracked), walked]

theorem delivered_first {get : TrackGet} {others gets : List TrackGet} {mem : RevMem}
    (tracks : cpu.trackGets = get :: others)
    (walked : PanCPU.deliverGets cpu.mem event.tag fresh [] cpu.trackGets = .ok (gets, mem))
    (exactly : Exact cpu event gets mem) :
    event.tag ≠ 0 ∧ others.length ≤ 1 ∧ get.tag = event.tag := by
  rw [Exact] at exactly
  by_cases zero : event.tag = 0
  · -- Every tag becomes 0, and nothing is removed.
    rw [zero, deliverGets_zero] at walked
    cases walked
    split at exactly
    · rename_i missing
      have other := List.find?_eq_none.mp missing get (by rw [tracks]; exact List.mem_cons_self ..)
      have same := congrArg List.head? exactly.1
      rw [tracks] at same
      simp only [List.nil_append, List.map_cons, List.head?_cons, Option.some.injEq] at same
      have tag := congrArg TrackGet.tag same
      exact absurd (by simpa [zero] using tag.symm) other
    · rename_i found
      have shorter := congrArg List.length exactly.1
      rw [List.length_erase_of_mem (List.mem_of_find?_eq_some found), List.nil_append,
        List.length_map, tracks] at shorter
      simp at shorter
  · refine ⟨zero, ?_⟩
    have counted := deliverGets_length zero _ _ _ walked
    split at exactly
    · -- The loop always removes something.
      have same := congrArg List.length exactly.1
      rw [tracks] at counted same
      simp only [List.length_cons, List.length_nil] at counted same
      rcases counted with even | ⟨-, -, empty⟩
      · omega
      · simp [empty] at same
    · rename_i found hit
      have inside := List.mem_of_find?_eq_some hit
      have shorter := congrArg List.length exactly.1
      rw [List.length_erase_of_mem inside] at shorter
      have few : others.length ≤ 1 := by
        rw [tracks] at counted shorter
        simp only [List.length_cons, List.length_nil] at counted shorter
        rcases counted with even | ⟨-, one, -⟩
        · omega
        · omega
      refine ⟨few, ?_⟩
      by_contra other
      rw [tracks, List.find?_cons_of_neg (by simpa using other)] at hit
      have tag : found.tag = event.tag := by simpa using List.find?_some hit
      have apart : get ≠ found := fun same => other (by rw [same, tag])
      rw [tracks, PanCPU.deliverGets, if_neg zero] at walked
      split at walked
      · cases walked
      · match others with
        | [] => simp at hit
        | [second] =>
          have same : second = found := by
            simpa using List.mem_singleton.mp (List.mem_of_find?_eq_some hit) |>.symm
          subst same
          cases walked
          have kept := exactly.1
          rw [tracks, List.erase_cons_tail (by simpa using apart), List.erase_cons_head] at kept
          exact apart (by simpa using kept.symm)
        | _ :: _ :: _ => simp at few

variable (usable : ∀ get ∈ cpu.trackGets, Usable cpu.mem get.addr.toNat get.size.toNat)
include usable

theorem lucky_of_delivers (delivers : Delivers cpu event fresh) : Lucky cpu event fresh := by
  obtain ⟨gets, mem, walked, exactly, -⟩ := delivers
  cases tracks : cpu.trackGets with
  | nil => exact .inl tracks
  | cons get others =>
    obtain ⟨positive, few, tag⟩ := delivered_first tracks walked exactly
    refine .inr ⟨positive, get, others, tracks, few, tag, fun index inside => ?_⟩
    obtain ⟨after, written, -, -, view⟩ := writeMem_valid
      (usable get (by rw [tracks]; exact List.mem_cons_self ..)) (fresh others.length)
    rw [tracks, deliverGets_few positive few written] at walked
    cases walked
    have found : cpu.trackGets.find? (fun get => get.tag == event.tag) = some get := by
      rw [tracks, List.find?_cons_of_pos (by simpa using tag)]
    rw [Exact, found] at exactly
    have byte := (view (get.addr.toNat + index)).symm.trans (exactly.2 (get.addr.toNat + index))
    simpa [flatStore, inside] using byte

variable (tracked : (event.tag, event.src) ∈ cpu.trackTags)
include tracked

theorem delivers_of_lucky (lucky : Lucky cpu event fresh) : Delivers cpu event fresh := by
  rcases lucky with none | ⟨positive, get, others, tracks, few, tag, filled⟩
  · have walked : PanCPU.deliverGets cpu.mem event.tag fresh [] cpu.trackGets =
        .ok (cpu.trackGets, cpu.mem) := by
      rw [none]
      rfl
    refine ⟨_, _, walked, ?_, panHandleSuccess_loop tracked walked⟩
    rw [Exact, none]
    exact ⟨rfl, fun _ => rfl⟩
  · obtain ⟨after, written, -, -, view⟩ := writeMem_valid
      (usable get (by rw [tracks]; exact List.mem_cons_self ..)) (fresh others.length)
    have walked : PanCPU.deliverGets cpu.mem event.tag fresh [] cpu.trackGets =
        .ok (others, after) := by
      rw [tracks]
      exact deliverGets_few positive few written
    refine ⟨_, _, walked, ?_, panHandleSuccess_loop tracked walked⟩
    have found : cpu.trackGets.find? (fun get => get.tag == event.tag) = some get := by
      rw [tracks, List.find?_cons_of_pos (by simpa using tag)]
    rw [Exact, found]
    refine ⟨by rw [tracks, List.erase_cons_head], fun vAddr => ?_⟩
    rw [view]
    simp only [flatStore]
    split_ifs with inside
    · exact filled _ (by omega)
    · rfl

/-- A response delivers its get exactly when the loop is lucky. -/
theorem delivers_iff_lucky : Delivers cpu event fresh ↔ Lucky cpu event fresh :=
  ⟨lucky_of_delivers usable, delivers_of_lucky usable tracked⟩

end Delivers

section Examples

/-- The small device with two gets outstanding, for the first bytes of its stack. -/
def twoGets : PanCPU :=
  { smallDevice with trackTags := [(3, 5), (4, 5)], trackGets := [⟨3, 1047552, 8⟩, ⟨4, 1047552, 8⟩] }

def success (tag : BitVec 8) : PanNicEvent :=
  { (PanNicEvent.new.buildSuccess 7 tag).setSrc 5 with size := 8, data := [0x1122] }

theorem twoGets_usable : ∀ get ∈ twoGets.trackGets,
    Usable twoGets.mem get.addr.toNat get.size.toNat := by
  intro get member
  simp only [twoGets, List.mem_cons, List.not_mem_nil, or_false] at member
  rcases member with rfl | rfl
  all_goals exact stack_usable rfl

theorem delivers_iff_lucky_first :
    Delivers twoGets (success 3) fun _ => bufferOf (success 3).data := by
  apply (delivers_iff_lucky twoGets_usable (by decide)).mpr
  exact .inr ⟨by decide, _, _, rfl, by decide, rfl, fun _ _ => rfl⟩

-- The response with the tag 4 removes the get with the tag 3.
theorem second_get_not_delivered : ¬ Delivers twoGets (success 4) fun _ _ => 0 := by
  intro delivers
  rcases lucky_of_delivers twoGets_usable delivers with none | ⟨-, get, others, tracks, -, tag, -⟩
  · exact absurd none (by decide)
  · cases tracks
    exact absurd tag (by decide)

end Examples
end RevCPU.Pan
