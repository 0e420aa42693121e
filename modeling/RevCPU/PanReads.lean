import RevCPU.OldRead
import RevCPU.PanPairing
/-!
Runs of the read queue: pushes with any cost, calls of processPANMemRead, and whatever else happens in
between. A push stands beside the number of calls before it, which tells the call that answers it.
-/
namespace RevCPU.Pan
open Mem OldRead

/-- The reads are made one after the other, each in the memory the one before has left. -/
def Served (mem : RevMem) : List ReadRqst → Prop
  | [] => True
  | rqst :: rest => Readable mem rqst.addr.toNat rqst.size.toNat ∧
      Served (afterRead mem rqst.addr.toNat rqst.size.toNat) rest

section Answer
variable {cpu : PanCPU} {fresh : Nat → Buffer} {rqsts : List ReadRqst}

theorem answerReads_iff :
    (∃ after, PanCPU.answerReads fresh cpu rqsts = .ok after) ↔ Served cpu.mem (due rqsts) := by
  induction rqsts generalizing cpu with
  | nil => exact ⟨fun _ => trivial, fun _ => ⟨cpu, rfl⟩⟩
  | cons rqst rest ih =>
    rw [PanCPU.answerReads]
    by_cases now : rqst.cost = 0
    · rw [if_pos now, due, List.filter_cons_of_pos (by simpa using now), Served, PanCPU.answerRead]
      by_cases readable : Readable cpu.mem rqst.addr.toNat rqst.size.toNat
      · obtain ⟨data, read⟩ := readMemOld_readable readable (fresh rest.length)
        rw [read]
        dsimp only
        rw [ih]
        exact ⟨fun served => ⟨readable, served⟩, And.right⟩
      · obtain ⟨fault, read⟩ := readMemOld_unreadable readable (fresh rest.length)
        rw [read]
        dsimp only
        constructor
        · rintro ⟨after, answered⟩
          cases answered
        · exact fun served => absurd served.1 readable
    · rw [if_neg now, due, List.filter_cons_of_neg (by simpa using now)]
      exact ih

def dueNext (rqsts : List ReadRqst) : List ReadRqst := rqsts.filter fun rqst => decide (rqst.cost.toNat ≤ 1)

theorem elapse_cost_zero (rqst : ReadRqst) :
    ((PanCPU.elapse rqst).cost == 0) = decide (rqst.cost.toNat ≤ 1) := by
  rw [PanCPU.elapse]
  have bound := rqst.cost.isLt
  by_cases zero : rqst.cost = 0
  · simp [zero]
  · have positive : rqst.cost.toNat ≠ 0 := fun nothing => zero (BitVec.eq_of_toNat_eq nothing)
    rw [if_pos zero, beq_eq_decide, decide_eq_decide, ← BitVec.toNat_inj, BitVec.toNat_sub]
    simp only [BitVec.reduceToNat]
    omega

theorem served_elapse (mem : RevMem) (rqsts : List ReadRqst) :
    Served mem (due (rqsts.map PanCPU.elapse)) ↔ Served mem (dueNext rqsts) := by
  induction rqsts generalizing mem with
  | nil => exact Iff.rfl
  | cons rqst rest ih =>
    have same : (PanCPU.elapse rqst).addr = rqst.addr ∧ (PanCPU.elapse rqst).size = rqst.size := by
      rw [PanCPU.elapse]
      split_ifs <;> exact ⟨rfl, rfl⟩
    rw [due, dueNext, List.map_cons, List.filter_cons, List.filter_cons, elapse_cost_zero]
    by_cases soon : rqst.cost.toNat ≤ 1
    · rw [if_pos (decide_eq_true soon), if_pos (decide_eq_true soon), Served, Served, same.1, same.2]
      exact and_congr_right fun _ => ih _
    · rw [if_neg (by simpa using soon), if_neg (by simpa using soon)]
      exact ih mem

theorem processPANMemRead_iff :
    (∃ after, cpu.processPANMemRead fresh = .ok after) ↔ Served cpu.mem (dueNext cpu.readQueue) := by
  rw [← served_elapse, ← @answerReads_iff cpu fresh, PanCPU.processPANMemRead]
  cases PanCPU.answerReads fresh cpu (cpu.readQueue.map PanCPU.elapse) with
  | error fault => simp
  | ok after => simp

end Answer

/-- A push and the number of calls of processPANMemRead before it. -/
structure Pushed where
  rqst : ReadRqst
  before : Nat

def Pushed.call (pushed : Pushed) : Nat := pushed.before + max 1 pushed.rqst.cost.toNat

/-- The read as it stands in the queue after some calls. -/
def Pushed.after (calls : Nat) (pushed : Pushed) : ReadRqst :=
  { pushed.rqst with cost := BitVec.ofNat 32 (pushed.rqst.cost.toNat - (calls - pushed.before)) }

/-- The pushes that a call answers, in the order of the pushes. -/
def dueAt (pushes : List Pushed) (call : Nat) : List Pushed :=
  pushes.filter fun pushed => pushed.call == call

/-- The queue after some calls: the pushes not answered yet, in their order. -/
def queueAt (pushes : List Pushed) (calls : Nat) : List ReadRqst :=
  (pushes.filter fun pushed => decide (calls < pushed.call)).map (Pushed.after calls)

section Deadlines
variable {calls : Nat} {pushes : List Pushed}

theorem after_cost (pushed : Pushed) (calls : Nat) :
    (pushed.after calls).cost.toNat = pushed.rqst.cost.toNat - (calls - pushed.before) := by
  have bound := pushed.rqst.cost.isLt
  rw [Pushed.after, BitVec.toNat_ofNat, Nat.mod_eq_of_lt (by omega)]

theorem elapse_after {pushed : Pushed} (known : pushed.before ≤ calls) :
    PanCPU.elapse (pushed.after calls) = pushed.after (calls + 1) := by
  have now := after_cost pushed calls
  have later := after_cost pushed (calls + 1)
  rw [PanCPU.elapse]
  by_cases zero : (pushed.after calls).cost = 0
  · rw [if_neg (not_not.mpr zero)]
    have none_left : (pushed.after calls).cost.toNat = 0 := congrArg BitVec.toNat zero
    have same : pushed.rqst.cost.toNat - (calls - pushed.before) =
        pushed.rqst.cost.toNat - (calls + 1 - pushed.before) := by omega
    rw [Pushed.after, Pushed.after, same]
  · have some_left : (pushed.after calls).cost.toNat ≠ 0 :=
      fun nothing => zero (BitVec.eq_of_toNat_eq nothing)
    have less : (pushed.after calls).cost - 1 = (pushed.after (calls + 1)).cost := by
      have bound := (pushed.after calls).cost.isLt
      rw [← BitVec.toNat_inj, BitVec.toNat_sub, later]
      simp only [BitVec.reduceToNat]
      omega
    rw [if_pos zero, less]
    rfl

theorem after_due {pushed : Pushed} (known : pushed.before ≤ calls) :
    ((pushed.after (calls + 1)).cost == 0) = decide (pushed.call ≤ calls + 1) := by
  have cost := after_cost pushed (calls + 1)
  rw [beq_eq_decide, decide_eq_decide, ← BitVec.toNat_inj, cost, Pushed.call]
  simp only [BitVec.reduceToNat]
  omega

theorem queueAt_elapse (known : ∀ pushed ∈ pushes, pushed.before ≤ calls) :
    (queueAt pushes calls).map PanCPU.elapse =
      (pushes.filter fun pushed => decide (calls < pushed.call)).map (Pushed.after (calls + 1)) := by
  rw [queueAt, List.map_map]
  apply List.map_congr_left
  intro pushed member
  exact elapse_after (known pushed (List.mem_of_mem_filter member))

theorem queueAt_due (known : ∀ pushed ∈ pushes, pushed.before ≤ calls) :
    due ((queueAt pushes calls).map PanCPU.elapse) =
      (dueAt pushes (calls + 1)).map (Pushed.after (calls + 1)) := by
  rw [queueAt_elapse known, due, List.filter_map, List.filter_filter, dueAt]
  congr 1
  apply List.filter_congr
  intro pushed member
  rw [Function.comp_apply, after_due (known pushed member), beq_eq_decide, ← Bool.decide_and,
    decide_eq_decide]
  omega

theorem queueAt_left (known : ∀ pushed ∈ pushes, pushed.before ≤ calls) :
    left ((queueAt pushes calls).map PanCPU.elapse) = queueAt pushes (calls + 1) := by
  rw [queueAt_elapse known, left, List.filter_map, List.filter_filter, queueAt]
  congr 1
  apply List.filter_congr
  intro pushed member
  rw [Function.comp_apply, bne, after_due (known pushed member), ← decide_not, ← Bool.decide_and,
    decide_eq_decide]
  omega

theorem queueAt_push (rqst : ReadRqst) :
    queueAt (pushes ++ [⟨rqst, calls⟩]) calls = queueAt pushes calls ++ [rqst] := by
  have waits : calls < (⟨rqst, calls⟩ : Pushed).call := by
    rw [Pushed.call]
    dsimp only
    omega
  rw [queueAt, List.filter_append, List.map_append]
  simp [queueAt, Pushed.after, waits]

theorem dueAt_push (rqst : ReadRqst) {call : Nat} (earlier : call ≤ calls) :
    dueAt (pushes ++ [⟨rqst, calls⟩]) call = dueAt pushes call := by
  have waits : (⟨rqst, calls⟩ : Pushed).call ≠ call := by
    rw [Pushed.call]
    dsimp only
    omega
  rw [dueAt, List.filter_append]
  simp [dueAt, waits]

end Deadlines

/-- What can happen: a push, a call, and anything else, which leaves the queue alone. -/
inductive Event where
  | push (rqst : ReadRqst)
  | read (fresh : Nat → Buffer)
  | other (next : PanCPU)

def happen (cpu : PanCPU) : Event → Except PanFault PanCPU
  | .push rqst => .ok { cpu with readQueue := cpu.readQueue ++ [rqst] }
  | .read fresh => cpu.processPANMemRead fresh
  | .other next => .ok { next with readQueue := cpu.readQueue }

/-- The pushes and calls so far, and every message that a call has pushed. -/
structure ReadBook where
  pushes : List Pushed
  calls : Nat
  messages : List (PanNicEvent × Int)

namespace ReadBook

/-- What is in the queue at the start counts as pushed then. -/
def start (cpu : PanCPU) : ReadBook := ⟨cpu.readQueue.map fun rqst => ⟨rqst, 0⟩, 0, []⟩

def note (book : ReadBook) (cpu after : PanCPU) : Event → ReadBook
  | .push rqst => { book with pushes := book.pushes ++ [⟨rqst, book.calls⟩] }
  | .read _ =>
    { book with
        calls := book.calls + 1
        messages := book.messages ++ after.sendMB.drop cpu.sendMB.length }
  | .other _ => book

end ReadBook

/-- The queue holds the pushes that wait for a later call, and the messages answer the others: one message
for each, pushed by the call that is its own, and in the order of the pushes within a call. -/
structure OnTime (book : ReadBook) (cpu : PanCPU) : Prop where
  queue : cpu.readQueue = queueAt book.pushes book.calls
  answered : List.Forall₂ (fun pushed message => Answers pushed.rqst message)
    ((List.range book.calls).flatMap fun call => dueAt book.pushes (call + 1)) book.messages

/-- New messages stand behind those there were. -/
def Behind (cpu after : PanCPU) : Event → Prop
  | .other _ => True
  | _ => cpu.sendMB <+: after.sendMB

/-- Every state of a run has its reads on time. -/
def Timely (cpu : PanCPU) (book : ReadBook) : List Event → Prop
  | [] => OnTime book cpu
  | event :: rest => OnTime book cpu ∧ ∃ after, happen cpu event = .ok after ∧
      Behind cpu after event ∧ Timely after (book.note cpu after event) rest

/-- The condition on a step: the reads that a call answers can be made. -/
def Granted (cpu : PanCPU) : Event → Prop
  | .read _ => Served cpu.mem (dueNext cpu.readQueue)
  | _ => True

def AllGranted (cpu : PanCPU) : List Event → Prop
  | [] => True
  | event :: rest => Granted cpu event ∧ ∀ after, happen cpu event = .ok after → AllGranted after rest

section Run
variable {cpu after : PanCPU} {book : ReadBook} {event : Event} {events : List Event}

theorem happen_iff : (∃ after, happen cpu event = .ok after) ↔ Granted cpu event := by
  cases event with
  | push rqst => exact ⟨fun _ => trivial, fun _ => ⟨_, rfl⟩⟩
  | read fresh => exact processPANMemRead_iff
  | other next => exact ⟨fun _ => trivial, fun _ => ⟨_, rfl⟩⟩

/-- A state with its reads on time and no push from a later call. -/
structure Timed (book : ReadBook) (cpu : PanCPU) : Prop where
  onTime : OnTime book cpu
  known : ∀ pushed ∈ book.pushes, pushed.before ≤ book.calls

theorem start_kept (cpu : PanCPU) : Timed (.start cpu) cpu where
  onTime := by
    constructor
    · have same : (Pushed.after 0 ∘ fun rqst => ⟨rqst, 0⟩) = id := by
        funext rqst
        simp [Pushed.after]
      rw [ReadBook.start, queueAt, List.filter_eq_self.mpr, List.map_map, same, List.map_id]
      · intro pushed member
        rcases List.mem_map.mp member with ⟨rqst, _, rfl⟩
        rw [decide_eq_true_eq, Pushed.call]
        dsimp only
        omega
    · exact .nil
  known := by
    intro pushed member
    rcases List.mem_map.mp member with ⟨rqst, _, rfl⟩
    exact Nat.le_refl 0

theorem push_kept (kept : Timed book cpu) (rqst : ReadRqst)
    (happened : happen cpu (.push rqst) = .ok after) : Timed (book.note cpu after (.push rqst)) after := by
  cases happened
  constructor
  · constructor
    · rw [ReadBook.note, queueAt_push, ← kept.onTime.queue]
    · have answered := kept.onTime.answered
      have same : ∀ call ∈ List.range book.calls,
          dueAt (book.pushes ++ [⟨rqst, book.calls⟩]) (call + 1) = dueAt book.pushes (call + 1) :=
        fun call member => dueAt_push rqst (List.mem_range.mp member)
      rw [ReadBook.note]
      dsimp only
      rw [List.flatMap_congr same]
      exact answered
  · intro pushed member
    rcases List.mem_append.mp member with old | last
    · exact kept.known pushed old
    · rw [List.mem_singleton.mp last]
      exact Nat.le_refl _

theorem read_kept (kept : Timed book cpu) {fresh : Nat → Buffer}
    (happened : happen cpu (.read fresh) = .ok after) :
    Timed (book.note cpu after (.read fresh)) after ∧ cpu.sendMB <+: after.sendMB := by
  have read := processPANMemRead_read happened
  have ⟨replies, posted, each⟩ := read.posted
  rw [PanCPU.posted, PanCPU.posted, read.net, List.append_assoc, List.append_cancel_left_eq] at posted
  rw [kept.onTime.queue, queueAt_due kept.known, List.forall₂_map_left_iff] at each
  change List.Forall₂ (fun (pushed : Pushed) message => Answers pushed.rqst message) _ _ at each
  have queue := read.readQueue
  rw [kept.onTime.queue, queueAt_left kept.known] at queue
  refine ⟨?_, replies, posted.symm⟩
  constructor
  · constructor
    · exact queue
    · rw [ReadBook.note]
      dsimp only
      rw [posted, List.drop_left, List.range_succ, List.flatMap_append]
      exact List.rel_append kept.onTime.answered (by simpa using each)
  · exact fun pushed member => Nat.le_succ_of_le (kept.known pushed member)

/-- The reads are on time in every state of a run if and only if every step is granted. -/
theorem timely_iff (kept : Timed book cpu) : Timely cpu book events ↔ AllGranted cpu events := by
  induction events generalizing cpu book with
  | nil => exact ⟨fun _ => trivial, fun _ => kept.onTime⟩
  | cons event rest ih =>
    have step : ∀ {after}, happen cpu event = .ok after →
        Timed (book.note cpu after event) after ∧ Behind cpu after event := by
      intro after happened
      cases event with
      | push rqst =>
        refine ⟨push_kept kept rqst happened, ?_⟩
        cases happened
        exact List.prefix_rfl
      | read fresh => exact read_kept kept happened
      | other next =>
        cases happened
        exact ⟨⟨⟨kept.onTime.queue, kept.onTime.answered⟩, kept.known⟩, trivial⟩
    rw [Timely, AllGranted, ← happen_iff]
    constructor
    · rintro ⟨_, after, happened, _, timely⟩
      refine ⟨⟨after, happened⟩, ?_⟩
      intro other same
      rw [happened] at same
      cases same
      exact (ih (step happened).1).mp timely
    · rintro ⟨⟨after, happened⟩, granted⟩
      have ⟨next, behind⟩ := step happened
      exact ⟨kept.onTime, after, happened, behind, (ih next).mpr (granted after happened)⟩

/-- Reads are answered exactly once and on time in the runs whose due reads can all be made. -/
theorem reads_timely_iff (cpu : PanCPU) (events : List Event) :
    Timely cpu (.start cpu) events ↔ AllGranted cpu events :=
  timely_iff (start_kept cpu)

-- Nothing is mapped at the address 0, and the failed response that the code has for it is never built.
theorem unmapped_not_timely :
    ¬ ∀ (cpu : PanCPU) (events : List Event), Timely cpu (.start cpu) events := by
  intro every
  have ⟨_, after, happened, _, _, _, happened', _⟩ :=
    every smallDevice [.push ⟨3, 8, 1, 5, 0⟩, .read fun _ _ => 0]
  cases happened
  have fault : happen { smallDevice with readQueue := [⟨3, 8, 1, 5, 0⟩] } (.read fun _ _ => 0) =
      .error (.mem (.segFault 0)) := by
    rfl
  cases fault.symm.trans happened'

end Run

end RevCPU.Pan
