import Mathlib.Data.List.Destutter
import Mathlib.Data.List.Sort
/-!
A set kept as a list in strictly increasing order. A value is added behind the others, and sorting and
removing neighbours that are equal restores the order; removing the first match then removes the value.
-/
namespace SortedSet

variable {α : Type*} [LinearOrder α]

/-- Sorted, and the first of each run of equal values kept. -/
def sortUnique (values : List α) : List α :=
  (values.mergeSort fun a b => decide (a ≤ b)).destutter (· ≠ ·)

def Strict (values : List α) : Prop := values.Pairwise (· < ·)

theorem mem_destutter'_ne (first value : α) (rest : List α) :
    value ∈ rest.destutter' (· ≠ ·) first ↔ value = first ∨ value ∈ rest := by
  induction rest generalizing first with
  | nil => simp
  | cons next rest ih =>
    rw [List.mem_cons]
    by_cases apart : first ≠ next
    · rw [List.destutter'_cons_pos _ apart, List.mem_cons, ih]
    · rw [List.destutter'_cons_neg _ apart, ih, not_not.mp apart]
      exact or_self_left.symm

theorem mem_sortUnique (value : α) (values : List α) : value ∈ sortUnique values ↔ value ∈ values := by
  have sorted : value ∈ (values.mergeSort fun a b => decide (a ≤ b)) ↔ value ∈ values :=
    List.mem_mergeSort
  rw [sortUnique, ← sorted]
  cases values.mergeSort fun a b => decide (a ≤ b) with
  | nil => rfl
  | cons first rest => rw [List.destutter_cons', mem_destutter'_ne, List.mem_cons]

-- Neighbours that are in order and differ are strictly in order.
theorem strict_sortUnique (values : List α) : Strict (sortUnique values) := by
  have sorted : (values.mergeSort fun a b => decide (a ≤ b)).Pairwise (· ≤ ·) := by
    have ordered : (values.mergeSort fun a b => decide (a ≤ b)).Pairwise
        fun a b => decide (a ≤ b) = true :=
      List.pairwise_mergeSort (fun a b c => by simpa using le_trans)
        (fun a b => by simpa using le_total a b) values
    simpa using ordered
  have kept : (sortUnique values).Pairwise (· ≤ ·) := sorted.sublist (List.destutter_sublist _ _)
  have differ : (sortUnique values).IsChain (· ≠ ·) := List.isChain_destutter _ _
  apply List.isChain_iff_pairwise.mp
  rw [List.isChain_iff_getElem] at differ ⊢
  intro index inside
  exact lt_of_le_of_ne (List.isChain_iff_getElem.mp kept.isChain index inside) (differ index inside)

theorem Strict.erase {values : List α} (strict : Strict values) (value : α) :
    Strict (values.erase value) :=
  strict.sublist List.erase_sublist

theorem Strict.nodup {values : List α} (strict : Strict values) : values.Nodup :=
  strict.imp fun less => ne_of_lt less

theorem Strict.mem_erase {values : List α} (strict : Strict values) (value other : α) :
    other ∈ values.erase value ↔ other ≠ value ∧ other ∈ values :=
  strict.nodup.mem_erase_iff

end SortedSet
