import Mathlib.Data.List.Range
import Mathlib.Data.Finset.Card
namespace Rotation
/-! Walks around a ring of slots. A walk takes the slots in the order of the ring, so it comes back to a slot
only after all others. -/
variable {size start count slot : Nat}

/-- The slots of a walk of `count` steps from `start` on. -/
def walk (size start count : Nat) : List Nat := (List.range' start count).map (· % size)

@[simp] theorem walk_zero : walk size start 0 = [] := rfl

@[simp] theorem length_walk : (walk size start count).length = count := by simp [walk]

theorem walk_succ : walk size start (count + 1) = start % size :: walk size (start + 1) count := by
  rw [walk, List.range'_succ, List.map_cons, walk]

theorem walk_add (first second : Nat) :
    walk size start (first + second) = walk size start first ++ walk size (start + first) second := by
  rw [walk, walk, walk, ← List.map_append, List.range'_append_1]

theorem walk_mono {further : Nat} (short : count ≤ further) :
    ∀ slot ∈ walk size start count, slot ∈ walk size start further := by
  intro slot member
  have ⟨rest, split⟩ := Nat.exists_eq_add_of_le short
  rw [split, walk_add]
  exact List.mem_append_left _ member

theorem walk_mod : walk size (start % size) count = walk size start count := by
  induction count generalizing start with
  | zero => rfl
  | succ count ih =>
    have next : walk size (start % size + 1) count = walk size (start + 1) count := by
      rw [← ih, Nat.mod_add_mod, ih]
    rw [walk_succ, walk_succ, Nat.mod_mod, next]

theorem getElem?_walk {step : Nat} (inside : step < count) :
    (walk size start count)[step]? = some ((start + step) % size) := by
  rw [walk, List.getElem?_map, List.getElem?_range' inside, Option.map_some, Nat.one_mul]

theorem lt_of_mem_walk (positive : 0 < size) (member : slot ∈ walk size start count) : slot < size := by
  have ⟨step, _, same⟩ := List.mem_map.mp member
  rw [← same]
  exact Nat.mod_lt step positive

-- Two steps of a short walk lie less than a round apart.
theorem eq_of_mod {a b : Nat} (same : a % size = b % size) (below : a ≤ b) (near : b < a + size) : a = b := by
  have multiple : (b - a) % size = 0 := Nat.sub_mod_eq_zero_of_mod_eq same.symm
  have nothing : b - a = 0 := Nat.eq_zero_of_dvd_of_lt (Nat.dvd_of_mod_eq_zero multiple) (by omega)
  omega

theorem nodup_walk (short : count ≤ size) : (walk size start count).Nodup := by
  refine List.Nodup.map_on ?_ List.nodup_range'
  intro a first b second same
  have ⟨low, high⟩ := List.mem_range'_1.mp first
  have ⟨low', high'⟩ := List.mem_range'_1.mp second
  rcases Nat.le_total a b with below | above
  · exact eq_of_mod same below (by omega)
  · exact (eq_of_mod same.symm above (by omega)).symm

theorem mem_round (inside : slot < size) : slot ∈ walk size start size := by
  have within : (walk size start size).toFinset ⊆ Finset.range size := by
    intro slot member
    exact Finset.mem_range.mpr (lt_of_mem_walk (by omega) (List.mem_toFinset.mp member))
  have many : (Finset.range size).card ≤ (walk size start size).toFinset.card := by
    rw [Finset.card_range, List.toFinset_card_of_nodup (nodup_walk (Nat.le_refl size)), length_walk]
  rw [← List.mem_toFinset, Finset.eq_of_subset_of_card_le within many]
  exact Finset.mem_range.mpr inside

/-- Between two successive visits of a slot every other slot is visited once. -/
def Fair (size : Nat) (visits : List Nat) : Prop :=
  ∀ first second slot, first < second → visits[first]? = some slot → visits[second]? = some slot →
    (∀ step, first < step → step < second → visits[step]? ≠ some slot) →
    ∀ other < size, other ≠ slot → ((visits.take second).drop (first + 1)).count other = 1

theorem fair_walk : Fair size (walk size start count) := by
  intro first second slot later seen again quiet other inside apart
  have bound : second < count := by
    have ⟨bound, _⟩ := List.getElem?_eq_some_iff.mp again
    rw [length_walk] at bound
    exact bound
  rw [getElem?_walk (by omega), Option.some.injEq] at seen
  rw [getElem?_walk bound, Option.some.injEq] at again
  have round : second = first + size := by
    have far : ¬ start + second < start + first + size := by
      intro near
      have same := eq_of_mod (seen.trans again.symm) (by omega) near
      omega
    have close : ¬ first + size < second := by
      intro between
      refine quiet (first + size) (by omega) between ?_
      rw [getElem?_walk (by omega), ← Nat.add_assoc, Nat.add_mod_right, seen]
    omega
  have split : walk size start count = walk size start (first + 1) ++
      (walk size (start + (first + 1)) (size - 1) ++ walk size (start + second) (count - second)) := by
    have rest : start + second = start + (first + 1) + (size - 1) := by omega
    rw [rest, ← walk_add, ← walk_add]
    congr 1
    omega
  have between : ((walk size start count).take second).drop (first + 1) =
      walk size (start + (first + 1)) (size - 1) := by
    have length : second = (walk size start (first + 1) ++
        walk size (start + (first + 1)) (size - 1)).length := by
      rw [List.length_append, length_walk, length_walk]
      omega
    rw [split, ← List.append_assoc]
    conv_lhs => rw [length, List.take_left]
    exact List.drop_left' length_walk
  rw [between]
  refine List.count_eq_one_of_mem (nodup_walk (by omega)) ?_
  have member : other ∈ walk size (start + (first + 1)) (size - 1 + 1) := by
    rw [Nat.sub_add_cancel (by omega)]
    exact mem_round inside
  rw [walk_add, List.mem_append] at member
  rcases member with member | last
  · exact member
  · have place : start + (first + 1) + (size - 1) = start + second := by omega
    rw [place, walk_succ, walk_zero, List.mem_singleton, again] at last
    exact absurd last apart

end Rotation
