import RevCPU.AccessFrame
import RevCPU.CrossPage
import RevCPU.PanCPU
import RevCPU.Lib.SortedSet
/-!
The future reservations of RevMem: a sorted vector of addresses, which a PAN sets and revokes and which every
write revokes at its first address, with a controller as without one. A call that ends in a fault ends the
simulation. The scan for a reservation counts in an `unsigned`; the list stands for a vector it can scan.
-/
namespace RevCPU.Futures
open Mem MemCtrl SortedSet

/-- The memory with the controller it may have. -/
structure Store where
  mem : RevMem
  ctrl : Option Ctrl

inductive Call where
  | setFuture (addr : Nat)
  | revokeFuture (addr : Nat)
  | writeMem (hart addr len : Nat) (data : Buffer)
  | writeMemFlags (hart addr len : Nat) (data : Buffer) (flags : BitVec 32)

namespace Call

def addr : Call → Nat
  | setFuture addr | revokeFuture addr | writeMem _ addr _ _ | writeMemFlags _ addr _ _ _ => addr

/-- Only SetFuture leaves a reservation at its address. -/
def sets : Call → Bool
  | setFuture _ => true
  | _ => false

end Call

namespace Store
variable (store : Store)

-- The two overloads of WriteMem; the one without flags sends 0, and without a controller none are used.
def write (hart addr len : Nat) (data : Buffer) (flags : BitVec 32) : Except MemFault (Bool × Store) :=
  match store.ctrl with
  | none =>
    match store.mem.writeMemFlags hart addr len data flags.toNat with
    | .error fault => .error fault
    | .ok mem => .ok (true, { store with mem := mem })
  | some ctrl =>
    match CrossPage.writeMemFlags store.mem ctrl hart addr len data flags with
    | .error fault => .error fault
    | .ok (ctrl, mem) => .ok (true, ⟨mem, some ctrl⟩)

/-- What a call returns, and the memory after it. -/
def perform : Call → Except MemFault (Bool × Store)
  | .setFuture addr => .ok (true, { store with mem := store.mem.setFuture addr })
  | .revokeFuture addr =>
    let (found, mem) := store.mem.revokeFuture addr
    .ok (found, { store with mem := mem })
  | .writeMem hart addr len data => store.write hart addr len data 0
  | .writeMemFlags hart addr len data flags => store.write hart addr len data flags

def run (store : Store) : List Call → Except MemFault Store
  | [] => .ok store
  | call :: rest =>
    match store.perform call with
    | .error fault => .error fault
    | .ok (_, store) => store.run rest

end Store

section Frame
variable {mem after : RevMem}

-- No part of an access but the opening of a write looks at the reservations.
theorem futures_frame : AccessFrame.Frame fun mem after => after.futureRes = mem.futureRes where
  refl _ := rfl
  trans one two := two.trans one
  search mem vAddr := by
    unfold RevMem.searchTLB
    split <;> rfl
  add _ added := by
    unfold RevMem.addToTLB at added
    split at added
    · exact absurd added (by simp)
    · cases added
      rfl
  pages _ _ _ := rfl
  bytes _ _ := rfl

theorem storeLocal_futures {addr len : Nat} {data : Buffer}
    (stored : mem.storeLocal addr len data = .ok after) :
    after.futureRes = mem.futureRes.erase addr := by
  simp only [RevMem.storeLocal] at stored
  split at stored
  · exact absurd stored (by simp)
  · rename_i located
    split at stored
    · exact absurd stored (by simp)
    · rename_i first
      split at stored
      · exact absurd stored (by simp)
      · rename_i second
        cases stored
        have copied := (futures_frame.copyIn second).trans (futures_frame.copyIn first)
        exact copied.trans (futures_frame.locate located)

theorem storeCtrl_futures {ctrl sent : Ctrl} {hart addr len : Nat} {data : Buffer} {flags : BitVec 32}
    (stored : CrossPage.storeCtrl mem ctrl hart addr len data flags = .ok (sent, after)) :
    after.futureRes = mem.futureRes.erase addr := by
  simp only [CrossPage.storeCtrl] at stored
  split at stored
  · exact absurd stored (by simp)
  · rename_i located
    split at stored
    · cases stored
      exact futures_frame.locate located
    · cases stored
      exact futures_frame.locate located

end Frame

section Calls
variable {store after : Store} {returned : Bool}

theorem write_futures {hart addr len : Nat} {data : Buffer} {flags : BitVec 32}
    (written : store.write hart addr len data flags = .ok (returned, after)) :
    after.mem.futureRes = store.mem.futureRes.erase addr := by
  unfold Store.write at written
  split at written
  · split at written
    · exact absurd written (by simp)
    · rename_i stored
      cases written
      exact storeLocal_futures stored
  · split at written
    · exact absurd written (by simp)
    · rename_i stored
      cases written
      exact storeCtrl_futures stored

theorem perform_futures {call : Call} (performed : store.perform call = .ok (returned, after)) :
    after.mem.futureRes =
      if call.sets then sortUnique (store.mem.futureRes ++ [call.addr])
      else store.mem.futureRes.erase call.addr := by
  cases call with
  | setFuture addr =>
    cases performed
    rfl
  | revokeFuture addr =>
    cases performed
    rfl
  | writeMem hart addr len data => exact write_futures performed
  | writeMemFlags hart addr len data flags => exact write_futures performed

theorem perform_strict {call : Call} (strict : Strict store.mem.futureRes)
    (performed : store.perform call = .ok (returned, after)) : Strict after.mem.futureRes := by
  rw [perform_futures performed]
  split
  · exact strict_sortUnique _
  · exact strict.erase _

theorem statusFuture_iff (mem : RevMem) (addr : Nat) :
    mem.statusFuture addr = true ↔ addr ∈ mem.futureRes := decide_eq_true_iff

/-- A call decides whether its own address is reserved, and nothing about any other. -/
theorem perform_status {call : Call} (strict : Strict store.mem.futureRes)
    (performed : store.perform call = .ok (returned, after)) (addr : Nat) :
    after.mem.statusFuture addr =
      if call.addr = addr then call.sets else store.mem.statusFuture addr := by
  rw [Bool.eq_iff_iff, statusFuture_iff, perform_futures performed]
  cases call.sets with
  | true =>
    rw [if_pos rfl, mem_sortUnique, List.mem_append, List.mem_singleton, ← statusFuture_iff]
    by_cases own : call.addr = addr
    · simp [own]
    · simp [own, Ne.symm own]
  | false =>
    rw [if_neg Bool.false_ne_true, strict.mem_erase, ← statusFuture_iff]
    by_cases own : call.addr = addr
    · simp [own]
    · simp [own, Ne.symm own]

end Calls

section Runs
variable {start reached : Store} {calls : List Call}

def lastAt (addr : Nat) (calls : List Call) : Option Call :=
  (calls.filter fun call => decide (call.addr = addr)).getLast?

theorem lastAt_cons (addr : Nat) (call : Call) (rest : List Call) :
    lastAt addr (call :: rest) =
      (lastAt addr rest).or (if call.addr = addr then some call else none) := by
  unfold lastAt
  rw [List.filter_cons]
  by_cases own : call.addr = addr
  · rw [if_pos (decide_eq_true own), if_pos own, List.getLast?_cons]
    cases (rest.filter fun call => decide (call.addr = addr)).getLast? with
    | none => rfl
    | some last => rfl
  · rw [if_neg (by simpa using own), if_neg own, Option.or_none]

theorem lastAt_addr {addr : Nat} {call : Call} (last : lastAt addr calls = some call) :
    call.addr = addr := by
  have member := List.mem_of_getLast? last
  exact of_decide_eq_true (List.mem_filter.mp member).2

theorem Call.sets_iff (call : Call) : call.sets = true ↔ call = .setFuture call.addr := by
  cases call <;> simp [Call.sets, Call.addr]

theorem run_strict (strict : Strict start.mem.futureRes) (ran : start.run calls = .ok reached) :
    Strict reached.mem.futureRes := by
  induction calls generalizing start with
  | nil =>
    cases ran
    exact strict
  | cons call rest ih =>
    rw [Store.run] at ran
    split at ran
    · exact absurd ran (by simp)
    · rename_i performed
      exact ih (perform_strict strict performed) ran

/-- An address that was called is reserved as its last call left it, any other as it was. -/
theorem run_status (strict : Strict start.mem.futureRes) (ran : start.run calls = .ok reached)
    (addr : Nat) :
    reached.mem.statusFuture addr =
      ((lastAt addr calls).map Call.sets).getD (start.mem.statusFuture addr) := by
  induction calls generalizing start with
  | nil =>
    cases ran
    rfl
  | cons call rest ih =>
    rw [Store.run] at ran
    split at ran
    · exact absurd ran (by simp)
    · rename_i performed
      rw [ih (perform_strict strict performed) ran, perform_status strict performed, lastAt_cons]
      cases lastAt addr rest with
      | some last => rfl
      | none =>
        by_cases own : call.addr = addr
        · rw [if_pos own, if_pos own]
          rfl
        · rw [if_neg own, if_neg own]
          rfl

/-- After any calls the reservations are in strictly increasing order, an address is reserved exactly when
its last call was a SetFuture, and RevokeFuture reports and removes its own address only. -/
theorem futures_exact (empty : start.mem.futureRes = []) (ran : start.run calls = .ok reached) :
    reached.mem.futureRes.Pairwise (· < ·) ∧
      (∀ addr, reached.mem.statusFuture addr = true ↔ lastAt addr calls = some (.setFuture addr)) ∧
      ∀ addr, ∃ after,
        reached.perform (.revokeFuture addr) = .ok (reached.mem.statusFuture addr, after) ∧
          after.mem.statusFuture addr = false ∧
          ∀ other, other ≠ addr → after.mem.statusFuture other = reached.mem.statusFuture other := by
  have begun : Strict start.mem.futureRes := by
    rw [empty]
    exact List.Pairwise.nil
  have strict := run_strict begun ran
  refine ⟨strict, ?_, ?_⟩
  · intro addr
    have unset : start.mem.statusFuture addr = false := by
      rw [RevMem.statusFuture, empty]
      rfl
    rw [run_status begun ran addr, unset]
    cases last : lastAt addr calls with
    | none => simp
    | some call =>
      have own := lastAt_addr last
      rw [Option.map_some, Option.getD_some, Call.sets_iff, own, Option.some.injEq]
  · intro addr
    have performed : reached.perform (.revokeFuture addr) =
        .ok (reached.mem.statusFuture addr, ⟨(reached.mem.revokeFuture addr).2, reached.ctrl⟩) := rfl
    refine ⟨_, performed, ?_, ?_⟩
    · rw [perform_status strict performed]
      exact if_pos rfl
    · intro other apart
      rw [perform_status strict performed]
      exact if_neg (Ne.symm apart)

/-- Two reservations, of which a write at its first address revokes one. -/
def reserving : List Call :=
  [.setFuture 1310720, .setFuture 1310712, .setFuture 1310720, .writeMem 0 1310720 4 fun _ => 7]

theorem futures_exact_reserving : ∃ reached : Store,
    (Store.mk (RevMem.new 2097152 16 1 0) none).run reserving = .ok reached ∧
      (reached.mem.statusFuture 1310712 = true ∧ reached.mem.statusFuture 1310720 = false) ∧
      reached.mem.futureRes.Pairwise (· < ·) := by
  have seen : ((Store.mk (RevMem.new 2097152 16 1 0) none).run reserving).toOption.map
      (fun _ => ()) = some () := rfl
  obtain ⟨reached, ran, -⟩ := ok_of_seen seen
  obtain ⟨strict, status, -⟩ := futures_exact rfl ran
  refine ⟨reached, ran, ⟨(status 1310712).mpr rfl, ?_⟩, strict⟩
  rw [Bool.eq_false_iff]
  intro reserved
  exact absurd ((status 1310720).mp reserved) (by simp [reserving, lastAt, Call.addr])

end Runs
end RevCPU.Futures
