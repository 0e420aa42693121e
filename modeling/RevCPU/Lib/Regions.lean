import Mathlib.Data.List.Perm.Basic
namespace Regions
/-! Families of regions, no two of which share a cell, under splitting, merging and dropping. -/
section Search
variable {R : Type}

/-- Replaces the first region that qualifies, and names it. -/
def replaceFirst (hit : R → Bool) (pieces : R → List R) : List R → Option (R × List R)
  | [] => none
  | region :: rest =>
    if hit region then some (region, pieces region ++ rest)
    else (replaceFirst hit pieces rest).map fun found => (found.1, region :: found.2)

theorem replaceFirst_eq_none {hit : R → Bool} {pieces : R → List R} {family : List R} :
    replaceFirst hit pieces family = none ↔ family.find? hit = none := by
  induction family with
  | nil => simp [replaceFirst]
  | cons region rest ih =>
    by_cases here : hit region = true
    · simp [replaceFirst, here]
    · rw [replaceFirst, if_neg here, Option.map_eq_none_iff, ih, List.find?_cons_of_neg here]

theorem replaceFirst_eq_some {hit : R → Bool} {pieces : R → List R} {family left : List R}
    {region : R} (replaced : replaceFirst hit pieces family = some (region, left)) :
    family.find? hit = some region ∧ hit region = true ∧
      ∃ front back, family = front ++ region :: back ∧ left = front ++ pieces region ++ back := by
  induction family generalizing left with
  | nil => simp [replaceFirst] at replaced
  | cons head rest ih =>
    by_cases here : hit head = true
    · rw [replaceFirst, if_pos here, Option.some.injEq, Prod.mk.injEq] at replaced
      obtain ⟨rfl, rfl⟩ := replaced
      exact ⟨by simp [here], here, [], rest, rfl, rfl⟩
    · rw [replaceFirst, if_neg here, Option.map_eq_some_iff] at replaced
      obtain ⟨⟨found, tail⟩, replaced, same⟩ := replaced
      simp only [Prod.mk.injEq] at same
      obtain ⟨rfl, rfl⟩ := same
      obtain ⟨first, qualifies, front, back, rfl, rfl⟩ := ih replaced
      exact ⟨by rw [List.find?_cons_of_neg here, first], qualifies, head :: front, back, rfl, rfl⟩

theorem replaceFirst_of_find {hit : R → Bool} (pieces : R → List R) {family : List R} {region : R}
    (found : family.find? hit = some region) :
    hit region = true ∧ ∃ front back, family = front ++ region :: back ∧
      replaceFirst hit pieces family = some (region, front ++ pieces region ++ back) := by
  cases replaced : replaceFirst hit pieces family with
  | none => rw [replaceFirst_eq_none.mp replaced] at found; exact absurd found (by simp)
  | some result =>
    obtain ⟨other, left⟩ := result
    obtain ⟨first, qualifies, front, back, split, rfl⟩ := replaceFirst_eq_some replaced
    rw [found, Option.some.injEq] at first
    subst first
    exact ⟨qualifies, front, back, split, rfl⟩

theorem replaceFirst_first {hit : R → Bool} (pieces : R → List R) {front : List R} {region : R}
    (back : List R) (earlier : ∀ other ∈ front, hit other = false) (here : hit region = true) :
    replaceFirst hit pieces (front ++ region :: back) = some (region, front ++ pieces region ++ back) := by
  induction front with
  | nil => rw [List.nil_append, replaceFirst, if_pos here, List.nil_append]
  | cons head rest ih =>
    have past : ¬ hit head = true := by
      rw [earlier head List.mem_cons_self]
      exact Bool.false_ne_true
    rw [List.cons_append, replaceFirst, if_neg past,
      ih fun other member => earlier other (List.mem_cons_of_mem head member)]
    rfl

theorem replaceFirst_append (hit : R → Bool) (pieces : R → List R) (one two : List R) :
    replaceFirst hit pieces (one ++ two) =
      match replaceFirst hit pieces one with
      | some (region, left) => some (region, left ++ two)
      | none => (replaceFirst hit pieces two).map fun found => (found.1, one ++ found.2) := by
  induction one with
  | nil => simp [replaceFirst]
  | cons region rest ih =>
    by_cases here : hit region = true
    · simp [replaceFirst, here]
    · rw [List.cons_append, replaceFirst, replaceFirst, if_neg here, if_neg here, ih]
      cases replaceFirst hit pieces rest with
      | none => simp [Function.comp_def]
      | some found => rfl

theorem perm_replaced (front pieces back behind : List R) :
    (front ++ pieces ++ back ++ behind).Perm (pieces ++ behind ++ (front ++ back)) := by
  calc front ++ pieces ++ back ++ behind
      _ = front ++ (pieces ++ (back ++ behind)) := by simp
      _ |>.Perm (pieces ++ (front ++ (back ++ behind))) := List.perm_append_comm_assoc ..
      _ |>.Perm (pieces ++ (front ++ (behind ++ back))) :=
        (List.perm_append_comm.append_left front).append_left pieces
      _ |>.Perm (pieces ++ (behind ++ (front ++ back))) :=
        (List.perm_append_comm_assoc ..).append_left pieces
      _ = pieces ++ behind ++ (front ++ back) := by simp

end Search

variable {A R : Type} [Membership A R]

def Apart (one two : R) : Prop := ∀ cell : A, cell ∈ one → cell ∉ two

theorem Apart.symm {one two : R} (apart : Apart one two) : Apart two one :=
  fun cell inTwo inOne => apart cell inOne inTwo

theorem Apart.mono {part whole other : R} (apart : Apart whole other)
    (within : ∀ cell : A, cell ∈ part → cell ∈ whole) : Apart part other :=
  fun cell inPart => apart cell (within cell inPart)

theorem pairwise_perm {before after : List R} (same : before.Perm after) :
    before.Pairwise Apart ↔ after.Pairwise Apart :=
  same.pairwise_iff Apart.symm

theorem pairwise_add {family : List R} (apart : family.Pairwise Apart) {fresh : R}
    (clear : ∀ other ∈ family, Apart fresh other) : (family ++ [fresh]).Pairwise Apart := by
  rw [pairwise_perm List.perm_append_comm, List.singleton_append, List.pairwise_cons]
  exact ⟨clear, apart⟩

-- One region gives way to pieces that keep clear of each other and of the rest.
theorem pairwise_replace {before after others pieces : List R} {whole : R}
    (apart : before.Pairwise Apart) (old : before.Perm (whole :: others))
    (new : after.Perm (pieces ++ others)) (inner : pieces.Pairwise Apart)
    (outer : ∀ piece ∈ pieces, ∀ other ∈ others, Apart piece other) : after.Pairwise Apart := by
  rw [pairwise_perm new, List.pairwise_append]
  exact ⟨inner, (List.pairwise_cons.mp ((pairwise_perm old).mp apart)).2, outer⟩

theorem apart_of_perm {before others : List R} {whole : R} (apart : before.Pairwise Apart)
    (old : before.Perm (whole :: others)) : ∀ other ∈ others, Apart whole other :=
  (List.pairwise_cons.mp ((pairwise_perm old).mp apart)).1

def Covered (family : List R) (cell : A) : Prop := ∃ region ∈ family, cell ∈ region

section Covered
variable {family one two before after others wholes pieces : List R} {cell : A}

theorem not_covered_nil : ¬ Covered ([] : List R) cell := by
  rintro ⟨region, member, _⟩
  exact List.not_mem_nil member

theorem covered_append : Covered (one ++ two) cell ↔ Covered one cell ∨ Covered two cell := by
  constructor
  · rintro ⟨region, member, inside⟩
    rcases List.mem_append.mp member with left | right
    · exact .inl ⟨region, left, inside⟩
    · exact .inr ⟨region, right, inside⟩
  · rintro (⟨region, member, inside⟩ | ⟨region, member, inside⟩)
    · exact ⟨region, List.mem_append_left two member, inside⟩
    · exact ⟨region, List.mem_append_right one member, inside⟩

theorem covered_perm (same : before.Perm after) : Covered before cell ↔ Covered after cell := by
  constructor
  · rintro ⟨region, member, inside⟩
    exact ⟨region, same.mem_iff.mp member, inside⟩
  · rintro ⟨region, member, inside⟩
    exact ⟨region, same.mem_iff.mpr member, inside⟩

theorem covered_cons {region : R} :
    Covered (region :: family) cell ↔ cell ∈ region ∨ Covered family cell := by
  constructor
  · rintro ⟨other, member, inside⟩
    rcases List.mem_cons.mp member with same | rest
    · rw [same] at inside
      exact .inl inside
    · exact .inr ⟨other, rest, inside⟩
  · rintro (inside | ⟨other, member, inside⟩)
    · exact ⟨region, List.mem_cons_self, inside⟩
    · exact ⟨other, List.mem_cons_of_mem region member, inside⟩

theorem covered_middle {region : R} {front back : List R} :
    Covered (front ++ region :: back) cell ↔ cell ∈ region ∨ Covered (front ++ back) cell :=
  (covered_perm List.perm_middle).trans covered_cons

theorem covered_singleton {region : R} : Covered [region] cell ↔ cell ∈ region := by
  constructor
  · rintro ⟨other, member, inside⟩
    rw [← List.mem_singleton.mp member]
    exact inside
  · exact fun inside => ⟨region, List.mem_singleton_self region, inside⟩

-- No cell is in both parts of a family of regions that keep clear of each other.
theorem covered_apart (apart : (one ++ two).Pairwise Apart) (left : Covered one cell)
    (right : Covered two cell) : False := by
  have ⟨region, member, inside⟩ := left
  have ⟨other, member', inside'⟩ := right
  exact (List.pairwise_append.mp apart).2.2 region member other member' cell inside inside'

/-- Some regions give way to others that hold the same cells. -/
theorem regroup (apart : before.Pairwise Apart) (old : before.Perm (wholes ++ others))
    (new : after.Perm (pieces ++ others)) (inner : pieces.Pairwise Apart)
    (same : ∀ cell : A, Covered pieces cell ↔ Covered wholes cell) :
    after.Pairwise Apart ∧ ∀ cell : A, Covered after cell ↔ Covered before cell := by
  have ⟨_, rest, cross⟩ := List.pairwise_append.mp ((pairwise_perm old).mp apart)
  constructor
  · rw [pairwise_perm new, List.pairwise_append]
    refine ⟨inner, rest, fun piece member other present cell inPiece inOther => ?_⟩
    have ⟨whole, member', inWhole⟩ := (same cell).mp ⟨piece, member, inPiece⟩
    exact cross whole member' other present cell inWhole inOther
  · intro cell
    rw [covered_perm new, covered_perm old, covered_append, covered_append, same cell]

end Covered
end Regions
