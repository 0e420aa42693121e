import Mathlib.Data.List.Basic
import Mathlib.Data.Nat.Notation
/-!
The PAN execution queue. Indices come from a counter that wraps at the size of the queue, so an index
can be in the queue twice; every search takes the first.
-/
namespace RevCPU.Pan

inductive PanStatus where
  | QNull | QValid | QExec | QError
deriving DecidableEq, Repr

def maxEntry : Nat := 64

structure PanEntry where
  idx : Nat
  status : PanStatus
  addr : BitVec 64
deriving DecidableEq, Repr

structure PanExec where
  curEntry : Nat
  execQueue : List PanEntry
deriving DecidableEq, Repr

namespace PanExec

def new : PanExec := ⟨0, []⟩

def getNewEntry (exec : PanExec) : Nat :=
  if maxEntry ≤ exec.curEntry + 1 then 0 else exec.curEntry + 1

def addEntry (exec : PanExec) (addr : BitVec 64) : Option (Nat × PanExec) :=
  if exec.execQueue.length = maxEntry then none
  else
    let entry := exec.getNewEntry
    some (entry, ⟨entry, exec.execQueue ++ [⟨entry, .QValid, addr⟩]⟩)

/-- `none` where no entry has the index. -/
def removeEntry (exec : PanExec) (idx : Nat) : Option PanExec :=
  if exec.execQueue.any fun entry => entry.idx == idx then
    some { exec with execQueue := exec.execQueue.eraseP fun entry => entry.idx == idx }
  else none

def statusEntry (exec : PanExec) (idx : Nat) : PanStatus :=
  match exec.execQueue.find? fun entry => entry.idx == idx with
  | some entry => entry.status
  | none => .QError

/-- The first valid entry becomes an executing one. -/
def takeValid : List PanEntry → Option (BitVec 64 × List PanEntry)
  | [] => none
  | entry :: rest =>
    if entry.status = .QValid then some (entry.addr, { entry with status := .QExec } :: rest)
    else
      match takeValid rest with
      | none => none
      | some (addr, rest) => some (addr, entry :: rest)

/-- The status, with the address where it is `QExec`. -/
def getNextEntry (exec : PanExec) : PanStatus × BitVec 64 × PanExec :=
  if exec.execQueue.length = 0 then (.QNull, 0, exec)
  else
    match takeValid exec.execQueue with
    | some (addr, queue) => (.QExec, addr, { exec with execQueue := queue })
    | none => (.QError, 0, exec)

/-- Whether some entry waits to be run. -/
def runnable (exec : PanExec) : Bool := exec.execQueue.any fun entry => entry.status == .QValid

end PanExec

section Next

theorem takeValid_none {queue : List PanEntry} :
    PanExec.takeValid queue = none ↔ ∀ entry ∈ queue, entry.status ≠ .QValid := by
  induction queue with
  | nil => simp [PanExec.takeValid]
  | cons entry rest ih =>
    by_cases valid : entry.status = .QValid
    · simp [PanExec.takeValid, valid]
    · rw [PanExec.takeValid, if_neg valid, List.forall_mem_cons, ← ih]
      cases PanExec.takeValid rest with
      | none => simp [valid]
      | some taken => simp

theorem runnable_iff (exec : PanExec) :
    exec.runnable = true ↔ PanExec.takeValid exec.execQueue ≠ none := by
  rw [PanExec.runnable, List.any_eq_true, ne_eq, takeValid_none]
  simp

end Next

section Built

/-- The queues that the calls of a run build from a new one. -/
inductive Built : PanExec → Prop
  | new : Built .new
  | add {exec after : PanExec} {addr : BitVec 64} {idx : Nat} (built : Built exec)
      (added : exec.addEntry addr = some (idx, after)) : Built after
  | remove {exec after : PanExec} {idx : Nat} (built : Built exec)
      (removed : exec.removeEntry idx = some after) : Built after
  | next {exec : PanExec} (built : Built exec) : Built exec.getNextEntry.2.2

theorem takeValid_status {queue after : List PanEntry} {addr : BitVec 64}
    (named : ∀ entry ∈ queue, entry.status ≠ .QNull)
    (taken : PanExec.takeValid queue = some (addr, after)) :
    ∀ entry ∈ after, entry.status ≠ .QNull := by
  induction queue generalizing after with
  | nil => simp [PanExec.takeValid] at taken
  | cons entry rest ih =>
    have ⟨first, others⟩ := List.forall_mem_cons.mp named
    rw [PanExec.takeValid] at taken
    split at taken
    · cases taken
      exact List.forall_mem_cons.mpr ⟨by simp, others⟩
    · split at taken
      · cases taken
      · rename_i found
        cases taken
        exact List.forall_mem_cons.mpr ⟨first, ih others found⟩

theorem Built.status {exec : PanExec} (built : Built exec) :
    ∀ entry ∈ exec.execQueue, entry.status ≠ .QNull := by
  induction built with
  | new => simp [PanExec.new]
  | add built added ih =>
    rw [PanExec.addEntry] at added
    split at added
    · cases added
    · cases added
      intro entry member
      rcases List.mem_append.mp member with old | fresh
      · exact ih entry old
      · rw [List.mem_singleton.mp fresh]
        simp
  | remove built removed ih =>
    rw [PanExec.removeEntry] at removed
    split at removed
    · cases removed
      exact fun entry member => ih entry (List.mem_of_mem_eraseP member)
    · cases removed
  | next built ih =>
    rw [PanExec.getNextEntry]
    split
    · exact ih
    · split
      · rename_i taken
        exact takeValid_status ih taken
      · exact ih

end Built
end RevCPU.Pan
