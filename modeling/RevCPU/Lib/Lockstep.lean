import Mathlib.Data.List.Basic
/-!
Two deterministic machines in step. The lower one is driven by inputs: a busy input takes the next step
of the upper machine, an idle one leaves that machine where it is. Both stop at a halted state, which
the lower one reports.
-/
namespace RevCPU.Lockstep

variable {α σ ι ε : Type*}

section Upper
variable (next : α → α) (halted : α → Bool)

/-- The state after `n` steps, or the first halted one on the way. -/
def upTo : Nat → α → α
  | 0, state => state
  | n + 1, state => if halted state then state else upTo n (next state)

theorem upTo_halted (n : Nat) {state : α} (stopped : halted state = true) :
    upTo next halted n state = state := by
  cases n with
  | zero => rfl
  | succ n => rw [upTo, if_pos stopped]

theorem upTo_succ (n : Nat) {state : α} (going : halted state = false) :
    upTo next halted (n + 1) state = upTo next halted n (next state) := by
  rw [upTo, if_neg (by rw [going]; decide)]

/-- A property of all states on the way holds on the way from the next one too. -/
theorem on_the_way {good : α → Prop} {state : α} (going : halted state = false)
    (every : ∀ n, halted (upTo next halted n state) = false → good (upTo next halted n state)) :
    ∀ n, halted (upTo next halted n (next state)) = false → good (upTo next halted n (next state)) := by
  intro n
  have later := every (n + 1)
  rwa [upTo_succ next halted n going] at later

-- The two ways to a property of all states on the way.
theorem every_halted {good : α → Prop} {state : α} (ended : halted state = true) (n : Nat)
    (going : halted (upTo next halted n state) = false) : good (upTo next halted n state) := by
  rw [upTo_halted next halted n ended, ended] at going
  cases going

theorem every_next {good : α → Prop} {state : α} (here : good state)
    (later : ∀ n, halted (upTo next halted n (next state)) = false →
      good (upTo next halted n (next state))) :
    ∀ n, halted (upTo next halted n state) = false → good (upTo next halted n state) := by
  intro n going
  cases n with
  | zero => exact here
  | succ n =>
    cases ended : halted state with
    | true => exact every_halted next halted ended (n + 1) going
    | false =>
      rw [upTo_succ next halted n ended] at going ⊢
      exact later n going

end Upper
section Lower
variable (step : ι → σ → Except ε (Bool × σ))

/-- The inputs one after the other, until the machine reports that it has stopped. -/
def run : List ι → σ → Except ε (Bool × σ)
  | [], state => .ok (true, state)
  | input :: rest, state =>
    match step input state with
    | .error fault => .error fault
    | .ok (true, after) => run rest after
    | .ok (false, after) => .ok (false, after)

end Lower
section Simulation
variable (next : α → α) (halted : α → Bool) (step : ι → σ → Except ε (Bool × σ)) (busy : ι → Bool)

/-- `rel` is kept by every input that is `fit`, as long as the upper machine takes its steps from `safe`
states; the step that reaches a halted state is the one that reports it. -/
structure Simulates (fit : ι → Prop) (safe : α → Prop) (rel : α → σ → Prop) : Prop where
  moves : ∀ {input state other}, rel state other → halted state = false → safe state → fit input →
    busy input = true →
    ∃ after, step input other = .ok (!halted (next state), after) ∧ rel (next state) after
  waits : ∀ {input state other}, rel state other → halted state = false → fit input →
    busy input = false → ∃ after, step input other = .ok (true, after) ∧ rel state after

variable {next halted step busy} {fit : ι → Prop} {safe : α → Prop} {rel : α → σ → Prop}

/-- A run of the lower machine makes as many steps of the upper one as it has busy inputs, stops where
that stops, and does not fail. -/
theorem Simulates.run (simulates : Simulates next halted step busy fit safe rel) {inputs : List ι}
    {state : α} {other : σ} (fits : ∀ input ∈ inputs, fit input) (related : rel state other)
    (going : halted state = false)
    (every : ∀ n, halted (upTo next halted n state) = false → safe (upTo next halted n state)) :
    ∃ after, Lockstep.run step inputs other =
        .ok (!halted (upTo next halted (inputs.countP busy) state), after) ∧
      rel (upTo next halted (inputs.countP busy) state) after := by
  induction inputs generalizing state other with
  | nil =>
    refine ⟨other, ?_, related⟩
    rw [List.countP_nil, upTo, going]
    rfl
  | cons input rest ih =>
    have fitting := fits input List.mem_cons_self
    have others : ∀ input ∈ rest, fit input := fun input listed => fits input (.tail _ listed)
    by_cases moved : busy input = true
    · obtain ⟨after, stepped, kept⟩ := simulates.moves related going (every 0 going) fitting moved
      rw [List.countP_cons_of_pos moved, upTo_succ next halted _ going, Lockstep.run, stepped]
      cases stopped : halted (next state) with
      | true =>
        rw [upTo_halted next halted _ stopped, stopped]
        exact ⟨after, rfl, kept⟩
      | false => exact ih others kept stopped (on_the_way next halted going every)
    · obtain ⟨after, stepped, kept⟩ :=
        simulates.waits related going fitting (Bool.eq_false_iff.mpr moved)
      rw [List.countP_cons_of_neg moved, Lockstep.run, stepped]
      exact ih others kept going every

end Simulation
end RevCPU.Lockstep
