import Mathlib.Data.List.Nodup
/-!
The reservation list `LRSC` of RevMem.cc, as LRBase searches and extends it and SCBase searches and
shortens it. What SCBase compares through the saved pointer is a parameter here, so the results hold
for any comparison. `hart` and `addr` are naturals.
-/
namespace RevCPU.Reservation

/-- A `uint64_t *` into a hart's RevRegFile, counted in 32-bit words from its start. -/
structure Pointer where
  hart : Nat
  word : Nat
deriving Repr, DecidableEq

structure Entry where
  hart : Nat
  addr : Nat
  aqrl : Nat
  val : Pointer
deriving Repr, DecidableEq

/-- The loop of LRBase. Its two branches differ in the hart they look for and refuse alike. -/
def collides (hart addr : Nat) : List Entry → Bool
  | [] => false
  | entry :: rest =>
    if hart = entry.hart ∧ addr = entry.addr then true
    else if hart ≠ entry.hart ∧ addr = entry.addr then true
    else collides hart addr rest

/-- LRBase on the list: the returned flag and the list afterwards. -/
def reserve (hart addr aq rl : Nat) (target : Pointer) (table : List Entry) :
    Bool × List Entry :=
  if collides hart addr table then (false, table)
  else (true, table ++ [⟨hart, addr, aq ||| (rl <<< 1), target⟩])

/-- SCBase on the list. A mismatch keeps the entry, a match erases it. -/
def conditional (hart addr : Nat) (same : Entry → Bool) : List Entry → Bool × List Entry
  | [] => (false, [])
  | entry :: rest =>
    if hart = entry.hart ∧ addr = entry.addr then
      if same entry then (true, rest) else (false, entry :: rest)
    else
      ((conditional hart addr same rest).1, entry :: (conditional hart addr same rest).2)

theorem collides_iff (hart addr : Nat) (table : List Entry) :
    collides hart addr table = true ↔ addr ∈ table.map Entry.addr := by
  induction table with
  | nil => simp [collides]
  | cons entry rest ih =>
    by_cases here : addr = entry.addr
    · by_cases own : hart = entry.hart <;> simp [collides, here, own]
    · simp [collides, here, ih]

theorem reserve_accepts_iff (hart addr aq rl : Nat) (target : Pointer) (table : List Entry) :
    (reserve hart addr aq rl target table).1 = true ↔ addr ∉ table.map Entry.addr := by
  rw [← collides_iff hart addr table]
  unfold reserve
  split <;> simp_all

theorem reserve_refused {hart addr aq rl : Nat} {target : Pointer} {table : List Entry}
    (refused : (reserve hart addr aq rl target table).1 = false) :
    (reserve hart addr aq rl target table).2 = table := by
  unfold reserve at refused ⊢
  split <;> simp_all

theorem conditional_refused {hart addr : Nat} {same : Entry → Bool} {table : List Entry}
    (refused : (conditional hart addr same table).1 = false) :
    (conditional hart addr same table).2 = table := by
  induction table with
  | nil => rfl
  | cons entry rest ih =>
    unfold conditional at refused ⊢
    split at refused
    · rename_i own
      rw [if_pos own]
      split at refused
      · exact absurd refused (by simp)
      · rename_i differs
        rw [if_neg differs]
    · rename_i other
      rw [if_neg other, ih refused]

-- The erased entry is the caller's, and the others keep their order.
theorem conditional_accepted {hart addr : Nat} {same : Entry → Bool} {table : List Entry}
    (accepted : (conditional hart addr same table).1 = true) :
    ∃ front entry back, table = front ++ entry :: back ∧ entry.hart = hart ∧ entry.addr = addr ∧
      same entry = true ∧ (conditional hart addr same table).2 = front ++ back := by
  induction table with
  | nil => simp [conditional] at accepted
  | cons head rest ih =>
    unfold conditional at accepted ⊢
    split at accepted
    · rename_i own
      rw [if_pos own]
      split at accepted
      · rename_i agrees
        exact ⟨[], head, rest, rfl, own.1.symm, own.2.symm, agrees, by rw [if_pos agrees]; rfl⟩
      · exact absurd accepted (by simp)
    · rename_i other
      obtain ⟨front, entry, back, split, hartSame, addrSame, agrees, left⟩ := ih accepted
      refine ⟨head :: front, entry, back, by rw [split]; rfl, hartSame, addrSame, agrees, ?_⟩
      rw [if_neg other, left]
      rfl

inductive Call where
  | lr (hart addr aq rl : Nat) (target : Pointer)
  | sc (hart addr : Nat) (same : Bool)
deriving Repr, DecidableEq

namespace Call

def addr : Call → Nat
  | lr _ addr .. | sc _ addr _ => addr

def step (table : List Entry) : Call → Bool × List Entry
  | lr hart addr aq rl target => reserve hart addr aq rl target table
  | sc hart addr same => conditional hart addr (fun _ => same) table

end Call

/-- The calls made so far with what each returned, oldest first, and the list they leave. -/
inductive Reached : List (Call × Bool) → List Entry → Prop
  | start : Reached [] []
  | call {log : List (Call × Bool)} {table : List Entry} (call : Call) (before : Reached log table) :
    Reached (log ++ [(call, (call.step table).1)]) (call.step table).2

/-- The latest success on the address is a load-reserve by the hart. -/
def Owns (log : List (Call × Bool)) (hart addr : Nat) : Prop :=
  ∃ early aq rl target late, log = early ++ (.lr hart addr aq rl target, true) :: late ∧
    ∀ record ∈ late, record.2 = true → record.1.addr ≠ addr

theorem Owns.extend {log : List (Call × Bool)} {hart addr : Nat} (owns : Owns log hart addr)
    {record : Call × Bool} (foreign : record.2 = true → record.1.addr ≠ addr) :
    Owns (log ++ [record]) hart addr := by
  obtain ⟨early, aq, rl, target, late, rfl, quiet⟩ := owns
  refine ⟨early, aq, rl, target, late ++ [record], by simp, fun other member => ?_⟩
  rcases List.mem_append.mp member with old | new
  · exact quiet other old
  · rw [List.mem_singleton.mp new]
    exact foreign

/-- At most one entry per address, and every entry is the latest success on its address. -/
structure Exclusive (log : List (Call × Bool)) (table : List Entry) : Prop where
  distinct : (table.map Entry.addr).Nodup
  owned : ∀ entry ∈ table, Owns log entry.hart entry.addr

theorem step_refused {table : List Entry} {call : Call} (refused : (call.step table).1 = false) :
    (call.step table).2 = table := by
  cases call with
  | lr => exact reserve_refused refused
  | sc => exact conditional_refused refused

theorem reserve_exclusive {log : List (Call × Bool)} {table : List Entry}
    (exclusive : Exclusive log table) {hart addr aq rl : Nat} {target : Pointer}
    (fresh : addr ∉ table.map Entry.addr) :
    Exclusive (log ++ [(.lr hart addr aq rl target, true)])
      (table ++ [⟨hart, addr, aq ||| (rl <<< 1), target⟩]) where
  distinct := by
    rw [List.map_append, List.nodup_append]
    refine ⟨exclusive.distinct, by simp, fun old member new last clash => fresh ?_⟩
    have isAddr : new = addr := List.mem_singleton.mp last
    rw [← isAddr, ← clash]
    exact member
  owned := by
    intro entry member
    rcases List.mem_append.mp member with old | new
    · apply (exclusive.owned entry old).extend
      rintro - (same : addr = entry.addr)
      rw [same] at fresh
      exact fresh (List.mem_map_of_mem old)
    · rw [List.mem_singleton.mp new]
      exact ⟨log, aq, rl, target, [], rfl, by simp⟩

theorem conditional_exclusive {log : List (Call × Bool)} {front back : List Entry} {entry : Entry}
    (exclusive : Exclusive log (front ++ entry :: back)) (same : Bool) :
    Exclusive (log ++ [(.sc entry.hart entry.addr same, true)]) (front ++ back) := by
  have moved : (front ++ entry :: back).Perm (entry :: (front ++ back)) := List.perm_middle
  have split := List.nodup_cons.mp ((moved.map Entry.addr).nodup_iff.mp exclusive.distinct)
  constructor
  · exact split.2
  · intro other member
    apply (exclusive.owned other (moved.mem_iff.mpr (List.mem_cons_of_mem _ member))).extend
    rintro - (clash : entry.addr = other.addr)
    rw [clash] at split
    exact split.1 (List.mem_map_of_mem member)

theorem step_exclusive {log : List (Call × Bool)} {table : List Entry}
    (exclusive : Exclusive log table) (call : Call) :
    Exclusive (log ++ [(call, (call.step table).1)]) (call.step table).2 := by
  cases outcome : (call.step table).1 with
  | false =>
    rw [step_refused outcome]
    refine ⟨exclusive.distinct, fun entry member => ?_⟩
    apply (exclusive.owned entry member).extend
    simp
  | true =>
    cases call with
    | lr hart addr aq rl target =>
      have fresh := (reserve_accepts_iff hart addr aq rl target table).mp outcome
      have clear : ¬ collides hart addr table = true := by rwa [collides_iff]
      simp only [Call.step, reserve, if_neg clear]
      exact reserve_exclusive exclusive fresh
    | sc hart addr same =>
      obtain ⟨front, entry, back, rfl, rfl, rfl, -, left⟩ := conditional_accepted outcome
      simp only [Call.step, left]
      exact conditional_exclusive exclusive same

theorem reached_exclusive {log : List (Call × Bool)} {table : List Entry}
    (reached : Reached log table) : Exclusive log table := by
  induction reached with
  | start => exact ⟨by simp, by simp⟩
  | call call _ ih => exact step_exclusive ih call

theorem sc_owns {log : List (Call × Bool)} {table : List Entry} (reached : Reached log table)
    {hart addr : Nat} {same : Bool} (accepted : ((Call.sc hart addr same).step table).1 = true) :
    Owns log hart addr := by
  obtain ⟨front, entry, back, rfl, rfl, rfl, -, -⟩ := conditional_accepted accepted
  exact (reached_exclusive reached).owned entry (by simp)

-- What a prefix of the log records was returned by the list as it then stood.
theorem reached_record {log : List (Call × Bool)} {table : List Entry} (reached : Reached log table)
    {early late : List (Call × Bool)} {call : Call} {outcome : Bool}
    (split : log = early ++ (call, outcome) :: late) :
    ∃ before, Reached early before ∧ (call.step before).1 = outcome := by
  induction reached generalizing late with
  | start => simp at split
  | @call log table last before ih =>
    rcases List.eq_nil_or_concat late with rfl | ⟨rest, final, rfl⟩
    · obtain ⟨rfl, same⟩ := List.append_inj' split rfl
      cases same
      exact ⟨table, before, rfl⟩
    · have regrouped : log ++ [(last, (last.step table).1)] =
          (early ++ (call, outcome) :: rest) ++ [final] := by simpa using split
      exact ih (List.append_inj' regrouped rfl).1

theorem sc_record_owns {log : List (Call × Bool)} {table : List Entry} (reached : Reached log table)
    {early late : List (Call × Bool)} {hart addr : Nat} {same : Bool}
    (split : log = early ++ (.sc hart addr same, true) :: late) : Owns early hart addr := by
  obtain ⟨before, reachedEarly, accepted⟩ := reached_record reached split
  exact sc_owns reachedEarly accepted

-- An owner's load-reserve comes after every earlier success on its address.
theorem Owns.after {early between : List (Call × Bool)} {call : Call} {hart addr : Nat}
    (owns : Owns (early ++ (call, true) :: between) hart addr) (on : call.addr = addr)
    (conditional : ∀ aq rl target, call ≠ .lr hart addr aq rl target) :
    ∃ aq rl target, (.lr hart addr aq rl target, true) ∈ between := by
  obtain ⟨front, aq, rl, target, late, split, quiet⟩ := owns
  refine ⟨aq, rl, target, ?_⟩
  rcases List.append_eq_append_iff.mp split with ⟨middle, rfl, rest⟩ | ⟨middle, rfl, rest⟩
  · cases middle with
    | nil =>
      simp only [List.nil_append, List.cons.injEq, Prod.mk.injEq, and_true] at rest
      exact absurd rest.1 (conditional aq rl target)
    | cons head tail =>
      simp only [List.cons_append, List.cons.injEq] at rest
      rw [rest.2]
      simp
  · cases middle with
    | nil =>
      simp only [List.nil_append, List.cons.injEq, Prod.mk.injEq, and_true] at rest
      exact absurd rest.1.symm (conditional aq rl target)
    | cons head tail =>
      simp only [List.cons_append, List.cons.injEq] at rest
      refine absurd on (quiet (call, true) ?_ rfl)
      rw [rest.2]
      simp

theorem reservation_exclusive {log : List (Call × Bool)} {table : List Entry}
    (reached : Reached log table) :
    (table.map Entry.addr).Nodup ∧
    (∀ early hart addr same late, log = early ++ (.sc hart addr same, true) :: late →
      Owns early hart addr) ∧
    (∀ early first firstSame between second addr secondSame late,
      log = early ++ (.sc first addr firstSame, true) :: between ++
        (.sc second addr secondSame, true) :: late →
      ∃ aq rl target, (.lr second addr aq rl target, true) ∈ between) ∧
    ∀ call, ((call : Call).step table).1 = false → (call.step table).2 = table := by
  refine ⟨(reached_exclusive reached).distinct, ?_, ?_, fun call => step_refused⟩
  · intro early hart addr same late split
    exact sc_record_owns reached split
  · intro early first firstSame between second addr secondSame late split
    apply (sc_record_owns reached split).after rfl
    simp

/-- The log and the list after some further calls. -/
def record (log : List (Call × Bool)) (table : List Entry) :
    List Call → List (Call × Bool) × List Entry
  | [] => (log, table)
  | call :: rest => record (log ++ [(call, (call.step table).1)]) (call.step table).2 rest

theorem record_reached {log : List (Call × Bool)} {table : List Entry}
    (reached : Reached log table) (calls : List Call) :
    Reached (record log table calls).1 (record log table calls).2 := by
  induction calls generalizing log table with
  | nil => exact reached
  | cons call rest ih => exact ih (reached.call call)

def contended : List (Call × Bool) × List Entry :=
  record [] [] [.lr 0 64 0 0 ⟨0, 52⟩, .lr 1 64 1 1 ⟨1, 52⟩, .sc 1 64 true, .sc 0 64 true,
    .lr 1 64 0 0 ⟨1, 52⟩, .sc 1 64 false, .sc 1 64 true]

-- Hart 0 wins the first round, hart 1 the second, and each success is preceded by its own LR.
theorem reservation_exclusive_contended :
    contended.1.map Prod.snd = [true, false, false, true, true, false, true] ∧
      (contended.2.map Entry.addr).Nodup :=
  ⟨by decide, (reservation_exclusive (record_reached .start _)).1⟩

end RevCPU.Reservation
