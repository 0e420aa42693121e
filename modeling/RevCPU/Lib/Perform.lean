import RevCPU.Lib.Trace
/-!
Traces whose events act on a state. A computation is specified, as in a Hoare triple, by what holds of the
state before it and, where it comes to its end, of what it returns and the state after it.
-/
namespace Trace.Run
universe u v w x
variable {ε : Type u} {α β : Type v} {σ : Type w} {φ : Type x} (act : σ → ε → Except φ σ)

/-- The events one after the other, up to the first that fails. -/
def perform (state : σ) : List ε → Except φ σ
  | [] => .ok state
  | event :: rest =>
    match act state event with
    | .error fault => .error fault
    | .ok next => perform next rest

theorem perform_append {state middle : σ} {first : List ε} (led : perform act state first = .ok middle)
    (second : List ε) : perform act state (first ++ second) = perform act middle second := by
  induction first generalizing state with
  | nil =>
    cases led
    rfl
  | cons event rest ih =>
    rw [List.cons_append, perform]
    rw [perform] at led
    cases acted : act state event with
    | error fault =>
      rw [acted] at led
      cases led
    | ok next =>
      rw [acted] at led
      exact ih led

/-- From a state that is as told, the events of a run that ends are performed, and lead to such a state. -/
def Leads (before : σ → Prop) (run : Run ε α) (after : α → σ → Prop) : Prop :=
  ∀ state value, before state → run.result = some value →
    ∃ last, perform act state run.events = .ok last ∧ after value last

section Rules
variable {act} {before : σ → Prop} {after : α → σ → Prop}

theorem leads_pure {value : α} (same : ∀ state, before state → after value state) :
    Leads act before (pure value) after := by
  intro state _ holds ended
  cases ended
  exact ⟨state, rfl, same state holds⟩

theorem leads_emit {event : ε} {after : PUnit → σ → Prop}
    (acts : ∀ state, before state → ∃ last, act state event = .ok last ∧ after ⟨⟩ last) :
    Leads act before (emit event) after := by
  intro state _ holds _
  obtain ⟨last, acted, reached⟩ := acts state holds
  refine ⟨last, ?_, reached⟩
  change perform act state [event] = .ok last
  rw [perform, acted]
  rfl

theorem leads_bind {run : Run ε α} {next : α → Run ε β} {middle : α → σ → Prop} {after : β → σ → Prop}
    (first : Leads act before run middle)
    (second : ∀ value, run.result = some value → Leads act (middle value) (next value) after) :
    Leads act before (run >>= next) after := by
  intro state value holds ended
  rw [result_bind] at ended
  obtain ⟨between, returned, ended⟩ := Option.bind_eq_some_iff.mp ended
  obtain ⟨halfway, begun, there⟩ := first state between holds returned
  obtain ⟨last, completed, reached⟩ := second between returned halfway value there ended
  refine ⟨last, ?_, reached⟩
  have events : (run >>= next).events = run.events ++ (next between).events := by
    obtain ⟨events, result⟩ := run
    cases returned
    rfl
  rw [events, perform_append act begun]
  exact completed

theorem leads_refuse {bad : Prop} [Decidable bad] {after : PUnit → σ → Prop}
    (passed : ¬ bad → ∀ state, before state → after ⟨⟩ state) :
    Leads act before (refuse bad) after := by
  rw [refuse]
  split
  · intro _ _ _ ended
    cases ended
  · rename_i good
    exact leads_pure (passed good)

/-- An event first, and then the rest of the run. -/
theorem leads_emit_bind {event : ε} {next : PUnit → Run ε β} {middle : σ → Prop} {after : β → σ → Prop}
    (acts : ∀ state, before state → ∃ last, act state event = .ok last ∧ middle last)
    (rest : Leads act middle (next ⟨⟩) after) : Leads act before (emit event >>= next) after := by
  have emitted : Leads act before (emit event) fun _ => middle := leads_emit acts
  exact leads_bind emitted fun _ _ => rest

theorem leads_refuse_bind {bad : Prop} [Decidable bad] {next : PUnit → Run ε β} {after : β → σ → Prop}
    (rest : ¬ bad → Leads act before (next ⟨⟩) after) : Leads act before (refuse bad >>= next) after := by
  have passed : Leads act before (refuse bad) fun _ state => ¬ bad ∧ before state :=
    leads_refuse fun good _ holds => ⟨good, holds⟩
  refine leads_bind passed fun _ _ => ?_
  intro state value holds ended
  exact rest holds.1 state value holds.2 ended

theorem leads_ite {test : Prop} [Decidable test] {first second : Run ε α}
    (true : test → Leads act before first after) (false : ¬ test → Leads act before second after) :
    Leads act before (if test then first else second) after := by
  split
  · rename_i holds
    exact true holds
  · rename_i fails
    exact false fails

/-- Events that leave every state as it is. -/
theorem leads_quiet {run : Run ε α} (quiet : All (fun event => ∀ state, act state event = .ok state) run) :
    Leads act before run fun _ => before := by
  intro state value holds _
  have same : ∀ events : List ε, (∀ event ∈ events, ∀ state, act state event = .ok state) →
      perform act state events = .ok state := by
    intro events quiet
    induction events with
    | nil => rfl
    | cons event rest ih =>
      rw [perform, quiet event List.mem_cons_self]
      exact ih fun other member => quiet other (List.mem_cons_of_mem event member)
  exact ⟨state, same run.events quiet, holds⟩

/-- A loop keeps an invariant that each of its bodies takes one further. -/
theorem leads_loop {body : Nat → β → Run ε β} {start : β} {invariant : Nat → β → σ → Prop} {count : Nat}
    (bodies : ∀ index < count, ∀ value,
      Leads act (invariant index value) (body index value) (invariant (index + 1))) :
    Leads act (invariant 0 start) (loop body start count) (invariant count) := by
  induction count with
  | zero => exact leads_pure fun _ holds => holds
  | succ count ih =>
    have earlier := ih fun index inside => bodies index (Nat.lt_succ_of_lt inside)
    exact leads_bind earlier fun value _ => bodies count (Nat.lt_succ_self count) value

end Rules
end Trace.Run
