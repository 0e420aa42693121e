import Mathlib.Algebra.Ring.Nat
import RevCPU.Lib.Regions
namespace Arcs
open Regions
/-! Consecutive cells of a ring, as the addresses of a fixed width form one. -/

/-- `size` cells from `base` on; the cell behind the last one of the ring is its first one. -/
structure Arc (wrap : Nat) where
  base : Nat
  size : Nat

/-- How far a cell lies behind another one. -/
def distance (wrap base cell : Nat) : Nat := if base ≤ cell then cell - base else cell + wrap - base

instance {wrap : Nat} : Membership Nat (Arc wrap) :=
  ⟨fun arc cell => cell < wrap ∧ distance wrap arc.base cell < arc.size⟩

variable {wrap base size first rest cell : Nat}

theorem mem_arc : cell ∈ (⟨base, size⟩ : Arc wrap) ↔ cell < wrap ∧ distance wrap base cell < size := Iff.rfl

theorem not_mem_empty : cell ∉ (⟨base, 0⟩ : Arc wrap) := fun member => Nat.not_lt_zero _ member.2

-- Where an arc does not come around, it is an interval.
theorem mem_interval (fits : base + size ≤ wrap) :
    cell ∈ (⟨base, size⟩ : Arc wrap) ↔ base ≤ cell ∧ cell < base + size := by
  rw [mem_arc, distance]
  split
  · omega
  · omega

theorem mem_base (inside : base < wrap) (nonempty : 0 < size) : base ∈ (⟨base, size⟩ : Arc wrap) := by
  rw [mem_arc, distance, if_pos (Nat.le_refl base), Nat.sub_self]
  exact ⟨inside, nonempty⟩

theorem mem_longer (member : cell ∈ (⟨base, size⟩ : Arc wrap)) : cell ∈ (⟨base, size + 1⟩ : Arc wrap) :=
  ⟨member.1, Nat.lt_succ_of_lt member.2⟩

section Join
variable (inside : base < wrap)
include inside

theorem next_base (within : first ≤ wrap) : (base + first) % wrap =
    if base + first < wrap then base + first else base + first - wrap := by
  split
  · rename_i below
    exact Nat.mod_eq_of_lt below
  · rename_i around
    rw [Nat.mod_eq_sub_mod (Nat.le_of_not_lt around), Nat.mod_eq_of_lt (by omega)]

theorem mem_join (within : first + rest ≤ wrap) :
    cell ∈ (⟨base, first + rest⟩ : Arc wrap) ↔
      cell ∈ (⟨base, first⟩ : Arc wrap) ∨ cell ∈ (⟨(base + first) % wrap, rest⟩ : Arc wrap) := by
  rw [mem_arc, mem_arc, mem_arc, next_base inside (by omega), distance, distance]
  split
  all_goals
    split
    all_goals
      split
      all_goals omega

theorem apart_join (within : first + rest ≤ wrap) :
    Apart (⟨base, first⟩ : Arc wrap) ⟨(base + first) % wrap, rest⟩ := by
  intro cell one two
  rw [mem_arc, distance] at one
  rw [mem_arc, next_base inside (by omega), distance] at two
  split at one
  all_goals
    split at two
    all_goals
      split at two
      all_goals omega

theorem distance_next (short : size < wrap) : distance wrap base ((base + size) % wrap) = size := by
  rw [next_base inside (Nat.le_of_lt short), distance]
  split
  all_goals
    split
    all_goals omega

-- The cell behind an arc is the one that a longer arc adds to it.
theorem mem_behind (short : size < wrap) : (base + size) % wrap ∈ (⟨base, size + 1⟩ : Arc wrap) := by
  rw [mem_arc, next_base inside (Nat.le_of_lt short), distance]
  split
  all_goals
    split
    all_goals omega

theorem behind_not_mem (short : size < wrap) : (base + size) % wrap ∉ (⟨base, size⟩ : Arc wrap) := by
  rw [mem_arc, next_base inside (Nat.le_of_lt short), distance]
  split
  all_goals
    split
    all_goals omega

-- Two neighbours that are as large as the ring leave no cell out.
theorem room_of_left_out (short : first ≤ wrap) (absent : cell ∉ (⟨base, first⟩ : Arc wrap))
    (absent' : cell ∉ (⟨(base + first) % wrap, rest⟩ : Arc wrap)) (real : cell < wrap) :
    first + rest < wrap := by
  rw [mem_arc, distance] at absent
  rw [mem_arc, next_base inside short, distance] at absent'
  split at absent
  all_goals
    split at absent'
    all_goals
      split at absent'
      all_goals omega

end Join

section Laid

instance {arc : Arc wrap} : Decidable (cell ∈ arc) :=
  inferInstanceAs (Decidable (cell < wrap ∧ distance wrap arc.base cell < arc.size))

/-- Arcs laid one behind the other, each given by its base and its size. -/
inductive Laid (wrap : Nat) : Nat → List (Nat × Nat) → Prop
  | nil (base : Nat) : Laid wrap base []
  | cons {base : Nat} {pieces : List (Nat × Nat)} (size : Nat)
    (rest : Laid wrap ((base + size) % wrap) pieces) : Laid wrap base ((base, size) :: pieces)

def total (pieces : List (Nat × Nat)) : Nat := (pieces.map Prod.snd).sum

def holders (wrap cell : Nat) (pieces : List (Nat × Nat)) : Nat :=
  pieces.countP fun piece => decide (cell ∈ (⟨piece.1, piece.2⟩ : Arc wrap))

variable {pieces : List (Nat × Nat)}

@[simp] theorem total_nil : total [] = 0 := rfl

@[simp] theorem total_cons (piece : Nat × Nat) : total (piece :: pieces) = piece.2 + total pieces := by
  rw [total, total, List.map_cons, List.sum_cons]

theorem holders_cons (piece : Nat × Nat) : holders wrap cell (piece :: pieces) =
    holders wrap cell pieces + if cell ∈ (⟨piece.1, piece.2⟩ : Arc wrap) then 1 else 0 := by
  rw [holders, List.countP_cons]
  simp only [decide_eq_true_eq]
  rfl

-- Laid arcs no longer than the ring share no cell and leave none out.
theorem Laid.holders (laid : Laid wrap base pieces) (inside : base < wrap) (short : total pieces ≤ wrap) :
    holders wrap cell pieces = if cell ∈ (⟨base, total pieces⟩ : Arc wrap) then 1 else 0 := by
  induction laid with
  | nil base => exact (if_neg not_mem_empty).symm
  | @cons base rest size tail ih =>
    simp only [total_cons] at short ⊢
    have later := ih (Nat.mod_lt _ (Nat.zero_lt_of_lt inside)) (by omega)
    rw [holders_cons, later]
    by_cases first : cell ∈ (⟨base, size⟩ : Arc wrap)
    · have other : cell ∉ (⟨(base + size) % wrap, total rest⟩ : Arc wrap) :=
        apart_join inside short cell first
      rw [if_neg other, if_pos first, if_pos ((mem_join inside short).mpr (.inl first))]
    · rw [if_neg first]
      by_cases behind : cell ∈ (⟨(base + size) % wrap, total rest⟩ : Arc wrap)
      · rw [if_pos behind, if_pos ((mem_join inside short).mpr (.inr behind))]
      · have out : cell ∉ (⟨base, size + total rest⟩ : Arc wrap) := by
          rw [mem_join inside short]
          rintro (one | two)
          · exact first one
          · exact behind two
        rw [if_neg behind, if_neg out]

end Laid
end Arcs
