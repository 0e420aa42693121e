import Mathlib.Data.List.Basic
import Mathlib.Data.List.Nodup
import Mathlib.Logic.Function.Basic
/-!
Resources that are open, and who can close them: each is held by one key, or by none for good.
-/
namespace Holdings

variable {κ δ : Type*}

/-- What is open is what the keys hold, each once, and what is lost. -/
structure Accounted (held : κ → List δ) (lost opened : List δ) : Prop where
  distinct : opened.Nodup
  once : ∀ key, (held key).Nodup
  apart : ∀ key other, key ≠ other → ∀ item ∈ held key, item ∉ held other
  aside : ∀ item ∈ lost, ∀ key, item ∉ held key
  exact : ∀ item, item ∈ opened ↔ item ∈ lost ∨ ∃ key, item ∈ held key

namespace Accounted
variable {held : κ → List δ} {lost opened : List δ} {item : δ} {key : κ}

theorem unheld (accounted : Accounted held lost opened) (fresh : item ∉ opened) (key : κ) : item ∉ held key :=
  fun member => fresh ((accounted.exact item).mpr (.inr ⟨key, member⟩))

/-- A resource that is opened for nobody. -/
theorem lose (accounted : Accounted held lost opened) (fresh : item ∉ opened) :
    Accounted held (lost ++ [item]) (item :: opened) where
  distinct := List.nodup_cons.mpr ⟨fresh, accounted.distinct⟩
  once := accounted.once
  apart := accounted.apart
  aside := by
    intro other member key
    rcases List.mem_append.mp member with old | new
    · exact accounted.aside other old key
    · rw [List.mem_singleton.mp new]
      exact accounted.unheld fresh key
  exact := by
    intro other
    rw [List.mem_cons, accounted.exact, List.mem_append, List.mem_singleton]
    tauto

/-- A resource that is opened for a key. -/
theorem take [DecidableEq κ] (accounted : Accounted held lost opened) (fresh : item ∉ opened) (key : κ) :
    Accounted (Function.update held key (held key ++ [item])) lost (item :: opened) where
  distinct := List.nodup_cons.mpr ⟨fresh, accounted.distinct⟩
  once := by
    intro other
    rw [Function.update_apply]
    split_ifs
    · exact List.nodup_append.mpr ⟨accounted.once key, List.nodup_singleton item, by
        rintro one member _ last rfl
        rw [List.mem_singleton.mp last] at member
        exact accounted.unheld fresh key member⟩
    · exact accounted.once other
  apart := by
    intro one other apart resource member
    rw [Function.update_apply] at member ⊢
    split_ifs at member with here <;> split_ifs with there
    · exact absurd (here.trans there.symm) apart
    · rcases List.mem_append.mp member with old | new
      · exact accounted.apart key other (here ▸ apart) resource old
      · rw [List.mem_singleton.mp new]
        exact accounted.unheld fresh other
    · rw [List.mem_append, List.mem_singleton, not_or]
      refine ⟨accounted.apart one key (there ▸ apart) resource member, ?_⟩
      rintro rfl
      exact accounted.unheld fresh one member
    · exact accounted.apart one other apart resource member
  aside := by
    intro resource member other
    rw [Function.update_apply]
    split_ifs
    · rw [List.mem_append, List.mem_singleton, not_or]
      refine ⟨accounted.aside resource member key, ?_⟩
      rintro rfl
      exact fresh ((accounted.exact resource).mpr (.inl member))
    · exact accounted.aside resource member other
  exact := by
    intro resource
    rw [List.mem_cons, accounted.exact]
    constructor
    · rintro (rfl | member | ⟨other, member⟩)
      · refine .inr ⟨key, ?_⟩
        rw [Function.update_self]
        exact List.mem_append_right _ (List.mem_singleton_self _)
      · exact .inl member
      · refine .inr ⟨other, ?_⟩
        rw [Function.update_apply]
        split_ifs with same
        · exact List.mem_append_left _ (same ▸ member)
        · exact member
    · rintro (member | ⟨other, member⟩)
      · exact .inr (.inl member)
      · rw [Function.update_apply] at member
        split_ifs at member
        · rcases List.mem_append.mp member with old | new
          · exact .inr (.inr ⟨key, old⟩)
          · exact .inl (List.mem_singleton.mp new)
        · exact .inr (.inr ⟨other, member⟩)

/-- A resource that its key closes. -/
theorem release [DecidableEq κ] [DecidableEq δ] (accounted : Accounted held lost opened)
    (holds : item ∈ held key) :
    Accounted (Function.update held key ((held key).erase item)) lost (opened.erase item) where
  distinct := accounted.distinct.erase item
  once := by
    intro other
    rw [Function.update_apply]
    split_ifs
    · exact (accounted.once key).erase item
    · exact accounted.once other
  apart := by
    intro one other apart resource member
    rw [Function.update_apply] at member ⊢
    split_ifs at member with here <;> split_ifs with there
    · exact absurd (here.trans there.symm) apart
    · exact accounted.apart key other (here ▸ apart) resource (List.mem_of_mem_erase member)
    · exact fun held => accounted.apart one key (there ▸ apart) resource member (List.mem_of_mem_erase held)
    · exact accounted.apart one other apart resource member
  aside := by
    intro resource member other
    rw [Function.update_apply]
    split_ifs
    · exact fun held => accounted.aside resource member key (List.mem_of_mem_erase held)
    · exact accounted.aside resource member other
  exact := by
    intro resource
    rw [accounted.distinct.mem_erase_iff, accounted.exact]
    constructor
    · rintro ⟨other, member | ⟨owner, member⟩⟩
      · exact .inl member
      · refine .inr ⟨owner, ?_⟩
        rw [Function.update_apply]
        split_ifs with same
        · exact (accounted.once key).mem_erase_iff.mpr ⟨other, same ▸ member⟩
        · exact member
    · rintro (member | ⟨owner, member⟩)
      · refine ⟨?_, .inl member⟩
        rintro rfl
        exact accounted.aside resource member key holds
      · rw [Function.update_apply] at member
        split_ifs at member with same
        · obtain ⟨other, member⟩ := (accounted.once key).mem_erase_iff.mp member
          exact ⟨other, .inr ⟨key, member⟩⟩
        · refine ⟨?_, .inr ⟨owner, member⟩⟩
          rintro rfl
          exact accounted.apart owner key same resource member holds

/-- What a key held when it went is lost. -/
theorem abandon [DecidableEq κ] (accounted : Accounted held lost opened) (key : κ) :
    Accounted (Function.update held key []) (lost ++ held key) opened where
  distinct := accounted.distinct
  once := by
    intro other
    rw [Function.update_apply]
    split_ifs
    · exact List.nodup_nil
    · exact accounted.once other
  apart := by
    intro one other apart resource member
    rw [Function.update_apply] at member ⊢
    split_ifs at member with here
    · exact absurd member List.not_mem_nil
    · split_ifs
      · exact List.not_mem_nil
      · exact accounted.apart one other apart resource member
  aside := by
    intro resource member other
    rw [Function.update_apply]
    split_ifs with same
    · exact List.not_mem_nil
    · rcases List.mem_append.mp member with old | left
      · exact accounted.aside resource old other
      · exact accounted.apart key other (Ne.symm same) resource left
  exact := by
    intro resource
    rw [accounted.exact, List.mem_append]
    constructor
    · rintro (member | ⟨owner, member⟩)
      · exact .inl (.inl member)
      · by_cases same : owner = key
        · exact .inl (.inr (same ▸ member))
        · refine .inr ⟨owner, ?_⟩
          rw [Function.update_of_ne same]
          exact member
    · rintro ((member | member) | ⟨owner, member⟩)
      · exact .inl member
      · exact .inr ⟨key, member⟩
      · rw [Function.update_apply] at member
        split_ifs at member
        · exact absurd member List.not_mem_nil
        · exact .inr ⟨owner, member⟩

end Accounted
end Holdings
