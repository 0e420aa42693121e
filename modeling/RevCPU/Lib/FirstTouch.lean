import Mathlib.Data.Finset.Card
import Mathlib.Data.Finset.Range
import Mathlib.Logic.Function.Basic
namespace FirstTouch
/-! Frames handed out in counting order to pages as they are first touched, and what a reader of
pages sees of the frames behind them. -/
variable {P β : Type}

/-- The frames below `next` are exactly the mapped ones, each owned by one page. -/
structure Exact (frameOf : P → Option Nat) (next : Nat) : Prop where
  below : ∀ page frame, frameOf page = some frame → frame < next
  injective : ∀ first second frame,
    frameOf first = some frame → frameOf second = some frame → first = second
  onto : ∀ frame, frame < next → ∃ page, frameOf page = some frame

theorem exact_empty : Exact (fun _ : P => none) 0 :=
  ⟨by simp, by simp, by simp⟩

-- The owners of the frames handed out are distinct pages.
theorem Exact.next_le_card {frameOf : P → Option Nat} {next : Nat} (exact : Exact frameOf next)
    (pages : Finset P) (within : ∀ page frame, frameOf page = some frame → page ∈ pages) :
    next ≤ pages.card := by
  classical
  let mapped := pages.image fun page => (frameOf page).getD 0
  have covers : Finset.range next ⊆ mapped := by
    intro frame bound
    obtain ⟨page, owner⟩ := exact.onto frame (Finset.mem_range.mp bound)
    exact Finset.mem_image.mpr ⟨page, within page frame owner, by simp [owner]⟩
  calc next = (Finset.range next).card := (Finset.card_range next).symm
    _ ≤ mapped.card := Finset.card_le_card covers
    _ ≤ pages.card := Finset.card_image_le

section Assign
variable [DecidableEq P] {frameOf : P → Option Nat} {next : Nat} {page : P}

theorem Exact.assign (exact : Exact frameOf next) (fresh : frameOf page = none) :
    Exact (Function.update frameOf page (some next)) (next + 1) where
  below := by
    intro other frame owner
    by_cases same : other = page
    · rw [same, Function.update_self, Option.some.injEq] at owner
      omega
    · rw [Function.update_of_ne same] at owner
      exact Nat.lt_succ_of_lt (exact.below other frame owner)
  injective := by
    have unused : ∀ other, frameOf other ≠ some next := fun other owner =>
      absurd (exact.below other next owner) (Nat.lt_irrefl next)
    intro first second frame one two
    by_cases left : first = page <;> by_cases right : second = page
    · exact left.trans right.symm
    · rw [left, Function.update_self] at one
      rw [Function.update_of_ne right, ← one] at two
      exact absurd two (unused second)
    · rw [right, Function.update_self] at two
      rw [Function.update_of_ne left, ← two] at one
      exact absurd one (unused first)
    · rw [Function.update_of_ne left] at one
      rw [Function.update_of_ne right] at two
      exact exact.injective first second frame one two
  onto := by
    intro frame bound
    rcases Nat.lt_succ_iff_lt_or_eq.mp bound with old | rfl
    · obtain ⟨owner, found⟩ := exact.onto frame old
      have differs : owner ≠ page := fun same => by simp [same, fresh] at found
      exact ⟨owner, by rw [Function.update_of_ne differs, found]⟩
    · exact ⟨page, Function.update_self ..⟩

-- An untouched page among finitely many leaves room for one more frame.
theorem Exact.next_lt_card (exact : Exact frameOf next) (fresh : frameOf page = none)
    (pages : Finset P) (member : page ∈ pages)
    (within : ∀ other frame, frameOf other = some frame → other ∈ pages) : next < pages.card := by
  refine (exact.assign fresh).next_le_card pages fun other frame owner => ?_
  by_cases same : other = page
  · exact same ▸ member
  · rw [Function.update_of_ne same] at owner
    exact within other frame owner

end Assign

section Place
variable {frameOf : Nat → Option Nat} {next size : Nat}

/-- The cell behind an address: the frame of its page at the same offset. -/
def place (frameOf : Nat → Option Nat) (size addr : Nat) : Option Nat :=
  (frameOf (addr / size)).map fun frame => frame * size + addr % size

theorem place_mapped {addr frame : Nat} (owner : frameOf (addr / size) = some frame) :
    place frameOf size addr = some (frame * size + addr % size) := by
  simp [place, owner]

theorem place_lt (exact : Exact frameOf next) (positive : 0 < size) {addr cell : Nat}
    (behind : place frameOf size addr = some cell) : cell < next * size := by
  obtain ⟨frame, owner, rfl⟩ := Option.map_eq_some_iff.mp behind
  have room : (frame + 1) * size ≤ next * size :=
    Nat.mul_le_mul_right size (exact.below _ frame owner)
  have inside := Nat.mod_lt addr positive
  rw [Nat.add_mul] at room
  omega

-- Handing out a frame moves no cell.
theorem place_assign {page addr cell frame : Nat} (fresh : frameOf page = none)
    (behind : place frameOf size addr = some cell) :
    place (Function.update frameOf page (some frame)) size addr = some cell := by
  obtain ⟨held, owner, rfl⟩ := Option.map_eq_some_iff.mp behind
  have differs : addr / size ≠ page := by
    intro same
    rw [same, fresh] at owner
    cases owner
  exact place_mapped (by rw [Function.update_of_ne differs, owner])

-- Cells of one page are consecutive.
theorem place_add {addr cell step : Nat} (behind : place frameOf size addr = some cell)
    (inside : addr % size + step < size) : place frameOf size (addr + step) = some (cell + step) := by
  obtain ⟨frame, owner, rfl⟩ := Option.map_eq_some_iff.mp behind
  have split : addr + step = addr % size + step + size * (addr / size) := by
    rw [Nat.add_right_comm, Nat.mod_add_div]
  have page : (addr + step) / size = addr / size := by
    rw [split, Nat.add_mul_div_left _ _ (by omega), Nat.div_eq_of_lt inside, Nat.zero_add]
  have offset : (addr + step) % size = addr % size + step := by
    rw [split, Nat.add_mul_mod_self_left, Nat.mod_eq_of_lt inside]
  simp [place, page, offset, owner, Nat.add_assoc]

-- A cell determines frame and offset, the frame its page, and page and offset the address.
theorem place_injective (exact : Exact frameOf next) (positive : 0 < size)
    {first second cell : Nat} (one : place frameOf size first = some cell)
    (two : place frameOf size second = some cell) : first = second := by
  obtain ⟨left, leftOwner, leftCell⟩ := Option.map_eq_some_iff.mp one
  obtain ⟨right, rightOwner, rightCell⟩ := Option.map_eq_some_iff.mp two
  have sameCell : size * left + first % size = size * right + second % size := by
    rw [Nat.mul_comm, Nat.mul_comm size, leftCell, rightCell]
  have frames : left = right := by
    have quotient := congrArg (· / size) sameCell
    simpa [Nat.mul_add_div positive, Nat.div_eq_of_lt (Nat.mod_lt _ positive)] using quotient
  subst frames
  have offsets : first % size = second % size := Nat.add_left_cancel sameCell
  have pages := exact.injective _ _ left leftOwner rightOwner
  rw [← Nat.div_add_mod first size, ← Nat.div_add_mod second size, pages, offsets]

variable {cell : Nat → β} {blank : β}

/-- What a reader sees at an address; a page without a frame reads as blank. -/
def view (frameOf : Nat → Option Nat) (size : Nat) (cell : Nat → β) (blank : β) (addr : Nat) : β :=
  match place frameOf size addr with
  | none => blank
  | some index => cell index

theorem view_placed {addr index : Nat} (behind : place frameOf size addr = some index) :
    view frameOf size cell blank addr = cell index := by
  simp [view, behind]

-- Handing out a blank frame cannot be seen.
theorem view_assign {page : Nat} (fresh : frameOf page = none)
    (clear : ∀ index, next * size ≤ index → cell index = blank) (addr : Nat) :
    view (Function.update frameOf page (some next)) size cell blank addr =
      view frameOf size cell blank addr := by
  by_cases same : addr / size = page
  · have before : place frameOf size addr = none := by simp [place, same, fresh]
    have after : place (Function.update frameOf page (some next)) size addr =
        some (next * size + addr % size) := place_mapped (by simp [same])
    simp [view, before, after, clear]
  · simp [view, place, Function.update_of_ne same]

-- A store into the cell behind an address is seen there and nowhere else.
theorem view_store (exact : Exact frameOf next) (positive : 0 < size) {addr index : Nat}
    (behind : place frameOf size addr = some index) (value : β) (other : Nat) :
    view frameOf size (Function.update cell index value) blank other =
      if other = addr then value else view frameOf size cell blank other := by
  by_cases same : other = addr
  · simp [view, same, behind]
  · rw [if_neg same]
    cases held : place frameOf size other with
    | none => simp [view, held]
    | some spot =>
      have apart : spot ≠ index := by
        intro clash
        subst clash
        exact same (place_injective exact positive held behind)
      simp [view, held, Function.update_of_ne apart]

end Place
end FirstTouch
