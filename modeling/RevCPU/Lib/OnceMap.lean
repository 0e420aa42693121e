import Mathlib.Data.List.Basic
namespace OnceMap
/-! A map whose `insert` keeps a binding that is already there, as an ordered map's single-element
insertion does. A key is therefore bound by the first pair inserted for it. -/
variable {κ ν : Type} [DecidableEq κ]

def Map (κ ν : Type) : Type := κ → Option ν

def empty : Map κ ν := fun _ => none

def find (map : Map κ ν) (key : κ) : Option ν := map key

def insert (map : Map κ ν) (key : κ) (value : ν) : Map κ ν :=
  fun other => if other = key then (map key).or (some value) else map other

def insertAll (map : Map κ ν) (pairs : List (κ × ν)) : Map κ ν :=
  pairs.foldl (fun acc pair => insert acc pair.1 pair.2) map

omit [DecidableEq κ] in
@[simp] theorem find_empty (key : κ) : find (empty : Map κ ν) key = none := rfl

theorem find_insert (map : Map κ ν) (key other : κ) (value : ν) :
    find (insert map key value) other =
      if other = key then (find map key).or (some value) else find map other := rfl

-- A fresh key takes the new value and no other binding moves.
theorem find_insert_fresh (map : Map κ ν) (key other : κ) (value : ν)
    (fresh : find map key = none) :
    find (insert map key value) other = if other = key then some value else find map other := by
  simp [find_insert, fresh]

theorem find_insertAll (map : Map κ ν) (pairs : List (κ × ν)) (key : κ) :
    find (insertAll map pairs) key =
      (find map key).or ((pairs.find? fun pair => pair.1 = key).map Prod.snd) := by
  induction pairs generalizing map with
  | nil => simp [insertAll]
  | cons pair rest ih =>
    have tail := ih (insert map pair.1 pair.2)
    rw [insertAll, List.foldl_cons, ← insertAll, tail, find_insert]
    by_cases hit : pair.1 = key
    · subst hit
      cases bound : find map pair.1 <;> simp
    · have miss : key ≠ pair.1 := fun same => hit same.symm
      simp [hit, miss]

section Indexed
variable {α : Type}

/-- The map from the key of a kept element to its position, filled in list order. -/
def indexBy (keep : α → Bool) (keyOf : α → κ) (items : List α) : Map κ Nat :=
  insertAll empty ((items.zipIdx.filter fun item => keep item.1).map
    fun item => (keyOf item.1, item.2))

theorem find_zipIdx (test : α → Bool) (items : List α) (start : Nat) :
    (items.zipIdx start).find? (fun item => test item.1) =
      (items.findIdx? test).bind fun index => items[index]?.map fun item => (item, start + index) := by
  induction items generalizing start with
  | nil => rfl
  | cons item rest ih =>
    by_cases hit : test item = true
    · simp [List.findIdx?_cons, hit]
    · simp only [List.zipIdx_cons, List.find?_cons, hit, List.findIdx?_cons, ih]
      cases List.findIdx? test rest with
      | none => rfl
      | some index => simp [Nat.add_comm, Nat.add_left_comm]

-- The position stored for a key is the first kept element with that key.
theorem find_indexBy (keep : α → Bool) (keyOf : α → κ) (items : List α) (key : κ) :
    find (indexBy keep keyOf items) key =
      items.findIdx? fun item => keep item && decide (keyOf item = key) := by
  rw [indexBy, find_insertAll, find_empty, Option.none_or, List.find?_map, List.find?_filter]
  have scan := find_zipIdx (fun item => keep item && decide (keyOf item = key)) items 0
  simp only [Function.comp_def, Bool.decide_and, Bool.decide_eq_true, scan]
  cases found : List.findIdx? (fun item => keep item && decide (keyOf item = key)) items with
  | none => rfl
  | some index =>
    have bound := (List.findIdx?_eq_some_iff_getElem.mp found).1
    simp [bound]

theorem bind_indexBy (keep : α → Bool) (keyOf : α → κ) (items : List α) (key : κ) :
    (find (indexBy keep keyOf items) key).bind (fun index => items[index]?) =
      items.find? fun item => keep item && decide (keyOf item = key) := by
  rw [find_indexBy]
  exact (List.find?_eq_bind_findIdx?_getElem? ..).symm

end Indexed
end OnceMap
