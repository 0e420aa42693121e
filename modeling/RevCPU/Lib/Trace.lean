import Mathlib.Logic.Basic
/-!
Computations that leave a trace of events and may stop. A property of all events is one of the parts of a
computation, where a later part counts if the earlier ones came to their end.
-/
namespace Trace
universe u v

structure Run (ε : Type u) (α : Type v) where
  events : List ε
  result : Option α

namespace Run
variable {ε : Type u} {α β : Type v}

def stop : Run ε α := ⟨[], none⟩

def emit (event : ε) : Run ε PUnit := ⟨[event], some ⟨⟩⟩

instance : Monad (Run ε) where
  pure value := ⟨[], some value⟩
  bind run next :=
    match run.result with
    | none => ⟨run.events, none⟩
    | some value => ⟨run.events ++ (next value).events, (next value).result⟩

/-- Stop on a condition. -/
def refuse (bad : Prop) [Decidable bad] : Run ε PUnit := if bad then stop else pure ⟨⟩

/-- The body for 0, 1, ..., each with what the one before it returned. -/
def loop (body : Nat → β → Run ε β) (start : β) : Nat → Run ε β
  | 0 => pure start
  | count + 1 => loop body start count >>= body count

def All (holds : ε → Prop) (run : Run ε α) : Prop := ∀ event ∈ run.events, holds event

variable {holds : ε → Prop}

section Result

@[simp] theorem result_pure (value : α) : (pure value : Run ε α).result = some value := rfl

@[simp] theorem result_emit (event : ε) : (emit event).result = some ⟨⟩ := rfl

@[simp] theorem result_stop : (stop : Run ε α).result = none := rfl

theorem result_bind (run : Run ε α) (next : α → Run ε β) :
    (run >>= next).result = run.result.bind fun value => (next value).result := by
  change (match run.result with | none => _ | some value => _ : Run ε β).result = _
  cases run.result with
  | none => rfl
  | some value => rfl

theorem result_bind_total {run : Run ε α} {next : α → Run ε β} {value : α} (total : run.result = some value) :
    (run >>= next).result = (next value).result := by
  rw [result_bind, total]
  rfl

theorem result_bind_of_result {run : Run ε α} {next : α → Run ε β} {passes : Prop} [Decidable passes]
    {value : α} (result : run.result = if passes then some value else none) :
    (run >>= next).result = if passes then (next value).result else none := by
  rw [result_bind, result]
  split
  · rfl
  · rfl

@[simp] theorem result_refuse_bind (bad : Prop) [Decidable bad] (next : PUnit → Run ε β) :
    (refuse bad >>= next).result = if bad then none else (next ⟨⟩).result := by
  rw [result_bind, refuse]
  split
  · rfl
  · rfl

@[simp] theorem result_emit_bind (event : ε) (next : PUnit → Run ε β) :
    (emit event >>= next).result = (next ⟨⟩).result := by
  rw [result_bind]
  rfl

end Result

section All

@[simp] theorem all_pure (value : α) : All holds (pure value : Run ε α) := nofun

@[simp] theorem all_stop : All holds (stop : Run ε α) := nofun

@[simp] theorem all_emit (event : ε) : All holds (emit event) ↔ holds event := by
  simp [All, emit]

theorem all_bind (run : Run ε α) (next : α → Run ε β) :
    All holds (run >>= next) ↔
      All holds run ∧ ∀ value, run.result = some value → All holds (next value) := by
  change All holds (match run.result with | none => _ | some value => _ : Run ε β) ↔ _
  cases run.result with
  | none => exact ⟨fun all => ⟨all, nofun⟩, fun all => all.1⟩
  | some value =>
    simp only [All, List.mem_append, Option.some.injEq]
    constructor
    · intro all
      exact ⟨fun event member => all event (.inl member), fun other same event member =>
        all event (.inr (same ▸ member))⟩
    · rintro ⟨first, second⟩ event (member | member)
      · exact first event member
      · exact second value rfl event member

@[simp] theorem all_emit_bind (event : ε) (next : PUnit → Run ε β) :
    All holds (emit event >>= next) ↔ holds event ∧ All holds (next ⟨⟩) := by
  rw [all_bind, all_emit]
  exact and_congr_right fun _ => ⟨fun all => all ⟨⟩ rfl, fun one _ _ => one⟩

@[simp] theorem all_refuse_bind (bad : Prop) [Decidable bad] (next : PUnit → Run ε β) :
    All holds (refuse bad >>= next) ↔ (¬ bad → All holds (next ⟨⟩)) := by
  rw [all_bind, refuse]
  by_cases refused : bad
  · simp [refused]
  · simp only [refused, if_false, all_pure, true_and, result_pure, not_false_eq_true, true_implies]
    exact ⟨fun all => all ⟨⟩, fun one _ => one⟩

theorem all_bind_total {run : Run ε α} {next : α → Run ε β} {value : α} (total : run.result = some value) :
    All holds (run >>= next) ↔ All holds run ∧ All holds (next value) := by
  rw [all_bind, total]
  exact and_congr_right fun _ => ⟨fun all => all value rfl, fun one _ same => Option.some.inj same ▸ one⟩

/-- A stage that stops on one condition and returns one value. -/
theorem all_bind_of_result {run : Run ε α} {next : α → Run ε β} {passes : Prop} [Decidable passes] {value : α}
    (result : run.result = if passes then some value else none) :
    All holds (run >>= next) ↔ All holds run ∧ (passes → All holds (next value)) := by
  rw [all_bind, result]
  by_cases passed : passes
  · simp [passed]
  · simp [passed]

@[simp] theorem all_refuse (bad : Prop) [Decidable bad] : All holds (refuse bad) := by
  rw [refuse]
  split
  · exact all_stop
  · exact all_pure _

theorem all_ite (test : Prop) [Decidable test] (first second : Run ε α) :
    All holds (if test then first else second) ↔
      (test → All holds first) ∧ (¬ test → All holds second) := by
  by_cases true : test
  · simp [true]
  · simp [true]

end All

section Loop
variable {body : Nat → β → Run ε β} {start : β}

theorem all_loop (count : Nat) : All holds (loop body start count) ↔
    ∀ index < count, ∀ value, (loop body start index).result = some value →
      All holds (body index value) := by
  induction count with
  | zero => simp [loop]
  | succ count ih =>
    rw [loop, all_bind, ih]
    constructor
    · rintro ⟨before, last⟩ index inside
      rcases Nat.lt_succ_iff_lt_or_eq.mp inside with earlier | rfl
      · exact before index earlier
      · exact last
    · intro all
      exact ⟨fun index inside => all index (Nat.lt_succ_of_lt inside), all count (Nat.lt_succ_self count)⟩

theorem all_loop_of (bodies : ∀ index value, All holds (body index value)) (count : Nat) :
    All holds (loop body start count) := (all_loop count).mpr fun index _ value _ => bodies index value

/-- What a loop that does not stop returns. -/
def folded (next : Nat → β → β) (start : β) : Nat → β
  | 0 => start
  | count + 1 => next count (folded next start count)

theorem result_loop_total {next : Nat → β → β} {count : Nat}
    (steps : ∀ index < count, ∀ value, (body index value).result = some (next index value)) :
    (loop body start count).result = some (folded next start count) := by
  induction count with
  | zero => rfl
  | succ count ih =>
    rw [loop, result_bind_total (ih fun index inside => steps index (Nat.lt_succ_of_lt inside))]
    exact steps count (Nat.lt_succ_self count) _

/-- The events of a loop that does not stop, whose bodies have the same events whatever they are given. -/
theorem all_loop_total {next : Nat → β → β} {each : Nat → Prop} {count : Nat}
    (steps : ∀ index < count, ∀ value, (body index value).result = some (next index value))
    (bodies : ∀ index < count, ∀ value, All holds (body index value) ↔ each index) :
    All holds (loop body start count) ↔ ∀ index < count, each index := by
  rw [all_loop]
  constructor
  · intro all index inside
    exact (bodies index inside _).mp (all index inside _ (result_loop_total fun earlier before =>
      steps earlier (Nat.lt_trans before inside)))
  · intro all index inside value _
    exact (bodies index inside value).mpr (all index inside)

/-- The last index below a count that is picked. -/
def Last (picked : Nat → Prop) (count index : Nat) : Prop :=
  index < count ∧ picked index ∧ ∀ later < count, index < later → ¬ picked later

instance {picked : Nat → Prop} [DecidablePred picked] {count index : Nat} :
    Decidable (Last picked count index) :=
  inferInstanceAs (Decidable (_ ∧ _ ∧ _))

theorem last_succ {picked : Nat → Prop} {count index : Nat} :
    Last picked (count + 1) index ↔
      index = count ∧ picked count ∨ Last picked count index ∧ ¬ picked count := by
  constructor
  · rintro ⟨inside, chosen, later⟩
    rcases Nat.lt_succ_iff_lt_or_eq.mp inside with earlier | rfl
    · right
      constructor
      · exact ⟨earlier, chosen, fun other below => later other (Nat.lt_succ_of_lt below)⟩
      · exact later count (Nat.lt_succ_self count) earlier
    · exact .inl ⟨rfl, chosen⟩
  · rintro (⟨rfl, chosen⟩ | ⟨⟨inside, chosen, later⟩, unchosen⟩)
    · exact ⟨Nat.lt_succ_self _, chosen, fun other below above => absurd below (by omega)⟩
    · refine ⟨Nat.lt_succ_of_lt inside, chosen, fun other below above => ?_⟩
      rcases Nat.lt_succ_iff_lt_or_eq.mp below with earlier | rfl
      · exact later other earlier above
      · exact unchosen

/-- Where each picked index replaces what is returned, the last one decides. -/
theorem folded_last (picked : Nat → Prop) [DecidablePred picked] (value : Nat → Nat) (count found : Nat)
    (positive : found ≠ 0) :
    folded (fun index before => if picked index then value index else before) 0 count = found ↔
      ∃ index < count, Last picked count index ∧ value index = found := by
  induction count with
  | zero => exact ⟨fun same => absurd same.symm positive, nofun⟩
  | succ count ih =>
    rw [folded]
    by_cases chosen : picked count
    · rw [if_pos chosen]
      constructor
      · intro same
        exact ⟨count, Nat.lt_succ_self count, last_succ.mpr (.inl ⟨rfl, chosen⟩), same⟩
      · rintro ⟨index, -, last, same⟩
        rcases last_succ.mp last with ⟨rfl, -⟩ | ⟨-, unchosen⟩
        · exact same
        · exact absurd chosen unchosen
    · rw [if_neg chosen, ih]
      constructor
      · rintro ⟨index, inside, last, same⟩
        exact ⟨index, Nat.lt_succ_of_lt inside, last_succ.mpr (.inr ⟨last, chosen⟩), same⟩
      · rintro ⟨index, -, last, same⟩
        rcases last_succ.mp last with ⟨-, other⟩ | ⟨earlier, -⟩
        · exact absurd other chosen
        · exact ⟨index, earlier.1, earlier, same⟩

variable (passes : Nat → Prop) [DecidablePred passes] (next : Nat → β → β) {count : Nat}
  (steps : ∀ index < count, ∀ value,
    (body index value).result = if passes index then some (next index value) else none)
include steps

theorem result_loop : (loop body start count).result =
    if ∀ index < count, passes index then some (folded next start count) else none := by
  induction count with
  | zero => rw [if_pos (fun index inside => absurd inside (Nat.not_lt_zero index))]; rfl
  | succ count ih =>
    rw [loop, result_bind, ih fun index inside => steps index (Nat.lt_succ_of_lt inside)]
    by_cases before : ∀ index < count, passes index
    · rw [if_pos before]
      change (body count _).result = _
      rw [steps count (Nat.lt_succ_self count)]
      by_cases last : passes count
      · rw [if_pos last, if_pos]
        · rfl
        · intro index inside
          rcases Nat.lt_succ_iff_lt_or_eq.mp inside with earlier | rfl
          · exact before index earlier
          · exact last
      · rw [if_neg last, if_neg fun all => last (all count (Nat.lt_succ_self count))]
    · rw [if_neg before, if_neg fun all => before fun index inside => all index (Nat.lt_succ_of_lt inside)]
      rfl

/-- The events of a loop whose bodies have the same events whatever they are given. -/
theorem all_loop_passes {each : Nat → Prop}
    (bodies : ∀ index < count, ∀ value, All holds (body index value) ↔ each index) :
    All holds (loop body start count) ↔
      ∀ index < count, (∀ before < index, passes before) → each index := by
  have upTo : ∀ index < count, (loop body start index).result =
      if ∀ before < index, passes before then some (folded next start index) else none :=
    fun index inside => result_loop passes next fun before less => steps before (Nat.lt_trans less inside)
  rw [all_loop]
  constructor
  · intro all index inside before
    have returned := upTo index inside
    rw [if_pos before] at returned
    exact (bodies index inside _).mp (all index inside _ returned)
  · intro all index inside value same
    by_cases before : ∀ earlier < index, passes earlier
    · exact (bodies index inside value).mpr (all index inside before)
    · rw [upTo index inside, if_neg before] at same
      cases same

end Loop
end Run
end Trace
