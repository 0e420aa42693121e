import Mathlib.Data.List.TakeWhile
import Mathlib.Data.List.Basic
/-!
Strings that end at their first zero. A list of characters is shown to a reader of such strings as what
stands in front of its first zero, and a string shows the zero behind its characters.
-/
namespace CString

variable {α : Type*}

section Shown
variable (chars : Nat → α) (count : Nat)

def shown : List α := (List.range count).map chars

@[simp] theorem length_shown : (shown chars count).length = count := by simp [shown]

theorem shown_succ : shown chars (count + 1) = shown chars count ++ [chars count] := by
  rw [shown, List.range_succ, List.map_append]
  rfl

theorem shown_add (first second : Nat) :
    shown chars (first + second) =
      shown chars first ++ shown (fun index => chars (first + index)) second := by
  rw [shown, List.range_add, List.map_append, List.map_map]
  rfl

end Shown

variable [Zero α]

def Solid (chars : List α) : Prop := ∀ char ∈ chars, char ≠ 0

theorem Solid.append {front back : List α} (first : Solid front) (second : Solid back) :
    Solid (front ++ back) := by
  intro char member
  rcases List.mem_append.mp member with inside | behind
  · exact first char inside
  · exact second char behind

theorem solid_shown (chars : Nat → α) (count : Nat) :
    Solid (shown chars count) ↔ ∀ index < count, chars index ≠ 0 := by
  simp [Solid, shown]

/-- A string without zeros that shows them with its zero has no zero to show but at the end. -/
theorem inner_of_take {chars : Nat → α} {count : Nat} {string : List α} (solid : Solid string)
    (shows : (string ++ [0]).take count = shown chars count) (index : Nat) (inside : index + 1 < count) :
    chars index ≠ 0 := by
  have long := congrArg List.length shows
  rw [List.length_take, List.length_append, List.length_singleton, length_shown] at long
  have short : index < string.length := by omega
  have here := congrArg (fun list => list[index]?) shows
  simp only [shown, List.getElem?_map, List.getElem?_range (show index < count by omega),
    List.getElem?_take_of_lt (show index < count by omega), List.getElem?_append_left short,
    List.getElem?_eq_getElem short, Option.map_some, Option.some.injEq] at here
  rw [← here]
  exact solid _ (List.getElem_mem short)

variable [DecidableEq α]

def cString (chars : List α) : List α := chars.takeWhile fun char => decide (char ≠ 0)

@[simp] theorem cString_nil : cString ([] : List α) = [] := rfl

theorem cString_solid (chars : List α) : Solid (cString chars) := by
  intro char member
  simpa using List.mem_takeWhile_imp member

theorem cString_append {front : List α} (solid : Solid front) (back : List α) :
    cString (front ++ back) = front ++ cString back := by
  induction front with
  | nil => rfl
  | cons char rest ih =>
    have ⟨head, tail⟩ := List.forall_mem_cons.mp solid
    rw [List.cons_append, cString, List.takeWhile_cons_of_pos (by simpa using head)]
    exact congrArg (char :: ·) (ih tail)

theorem cString_zero (front back : List α) : cString (front ++ 0 :: back) = cString front := by
  induction front with
  | nil => simp [cString]
  | cons char rest ih =>
    by_cases zero : char = 0
    · simp [cString, zero]
    · rw [List.cons_append, cString, cString, List.takeWhile_cons_of_pos (by simpa using zero),
        List.takeWhile_cons_of_pos (by simpa using zero)]
      exact congrArg (char :: ·) ih

theorem Solid.cString_self {chars : List α} (solid : Solid chars) : cString chars = chars := by
  have same := cString_append solid []
  rwa [List.append_nil, cString_nil, List.append_nil] at same

section Take
variable {chars : Nat → α} {count : Nat}

/-- With all characters but the last one other than zero, the string with its zero shows all. -/
theorem take_cString (inner : ∀ index, index + 1 < count → chars index ≠ 0) :
    (cString (shown chars count) ++ [0]).take count = shown chars count := by
  cases count with
  | zero => rfl
  | succ count =>
    have solid : Solid (shown chars count) :=
      (solid_shown chars count).mpr fun index inside => inner index (by omega)
    have whole : ∀ char : α,
        (shown chars count ++ [char]).take (count + 1) = shown chars count ++ [char] := by
      intro char
      exact List.take_of_length_le (by simp)
    rw [shown_succ]
    by_cases last : chars count = 0
    · rw [last, cString_zero, solid.cString_self, whole]
    · have all : Solid (shown chars count ++ [chars count]) := by
        rw [← shown_succ]
        rw [solid_shown]
        intro index inside
        rcases Nat.lt_succ_iff_lt_or_eq.mp inside with before | rfl
        · exact inner index (by omega)
        · exact last
      rw [all.cString_self]
      exact List.take_left' (by simp)

end Take
end CString
