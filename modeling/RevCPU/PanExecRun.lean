import RevCPU.PanExec
import Mathlib.Data.List.Pairwise
/-!
Runs of the PAN execution queue. Every entry gets a ticket, the number of additions before its own, which
the code does not have: the code knows an entry by an index that comes round again.
-/
namespace RevCPU.Pan

/-- `*Idx` of GetNextEntry: the index of the entry it takes. -/
def PanExec.takenIdx (exec : PanExec) : Option Nat :=
  (exec.execQueue.find? fun entry => entry.status == .QValid).map PanEntry.idx

inductive Call where
  | add (addr : BitVec 64)
  | remove (idx : Nat)
  | next

def PanExec.apply (exec : PanExec) : Call → PanExec
  | .add addr =>
    match exec.addEntry addr with
    | none => exec
    | some (_, after) => after
  | .remove idx =>
    match exec.removeEntry idx with
    | none => exec
    | some after => after
  | .next => exec.getNextEntry.2.2

abbrev Ticketed := Nat × PanEntry

def takeTicket : List Ticketed → Option (Ticketed × List Ticketed)
  | [] => none
  | (ticket, entry) :: rest =>
    if entry.status = .QValid then
      some ((ticket, entry), (ticket, { entry with status := .QExec }) :: rest)
    else
      match takeTicket rest with
      | none => none
      | some (taken, rest) => some (taken, (ticket, entry) :: rest)

/-- The queue with the tickets of its entries, and the tickets that GetNextEntry has returned. -/
structure Book where
  curEntry : Nat
  queue : List Ticketed
  added : Nat
  returned : List Nat

namespace Book

def new : Book := ⟨0, [], 0, []⟩

variable (book : Book)

def exec : PanExec := ⟨book.curEntry, book.queue.map Prod.snd⟩

def call : Call → Book
  | .add addr =>
    match book.exec.addEntry addr with
    | none => book
    | some (idx, after) =>
      { book with
          curEntry := after.curEntry
          queue := book.queue ++ [(book.added, ⟨idx, .QValid, addr⟩)]
          added := book.added + 1 }
  | .remove idx => { book with queue := book.queue.eraseP fun entry => entry.2.idx == idx }
  | .next =>
    match takeTicket book.queue with
    | none => book
    | some (taken, queue) => { book with queue := queue, returned := book.returned ++ [taken.1] }

def run (calls : List Call) : Book := calls.foldl call new

end Book

section Take

theorem takeTicket_entries (queue : List Ticketed) : PanExec.takeValid (queue.map Prod.snd) =
    (takeTicket queue).map fun taken => (taken.1.2.addr, taken.2.map Prod.snd) := by
  induction queue with
  | nil => rfl
  | cons head rest ih =>
    rcases head with ⟨ticket, entry⟩
    rw [List.map_cons, PanExec.takeValid, takeTicket]
    by_cases valid : entry.status = .QValid
    · rw [if_pos valid, if_pos valid]
      rfl
    · rw [if_neg valid, if_neg valid, ih]
      cases takeTicket rest with
      | none => rfl
      | some taken => rfl

theorem takeTicket_some {queue after : List Ticketed} {taken : Ticketed}
    (takes : takeTicket queue = some (taken, after)) : ∃ before behind,
      queue = before ++ taken :: behind ∧ (∀ entry ∈ before, entry.2.status ≠ .QValid) ∧
      taken.2.status = .QValid ∧
      after = before ++ (taken.1, { taken.2 with status := .QExec }) :: behind := by
  induction queue generalizing after with
  | nil => cases takes
  | cons head rest ih =>
    rcases head with ⟨ticket, entry⟩
    rw [takeTicket] at takes
    by_cases valid : entry.status = .QValid
    · rw [if_pos valid] at takes
      cases takes
      exact ⟨[], rest, rfl, by simp, valid, rfl⟩
    · rw [if_neg valid] at takes
      cases found : takeTicket rest with
      | none =>
        rw [found] at takes
        cases takes
      | some pair =>
        rw [found] at takes
        cases takes
        have ⟨before, behind, split, earlier, first, rest_after⟩ := ih found
        refine ⟨(ticket, entry) :: before, behind, ?_, ?_, first, ?_⟩
        · rw [split, List.cons_append]
        · exact List.forall_mem_cons.mpr ⟨valid, earlier⟩
        · rw [rest_after, List.cons_append]

theorem takeTicket_none {queue : List Ticketed} :
    takeTicket queue = none ↔ ∀ entry ∈ queue, entry.2.status ≠ .QValid := by
  have entries := takeTicket_entries queue
  have valid := @takeValid_none (queue.map Prod.snd)
  rw [entries, Option.map_eq_none_iff] at valid
  rw [valid, List.forall_mem_map]

theorem Book.call_exec (book : Book) (call : Call) : (book.call call).exec = book.exec.apply call := by
  cases call with
  | add addr =>
    rw [Book.call, PanExec.apply, PanExec.addEntry]
    by_cases full : book.exec.execQueue.length = maxEntry
    · rw [if_pos full]
    · rw [if_neg full]
      simp [Book.exec]
  | remove idx =>
    rw [Book.call, PanExec.apply, PanExec.removeEntry]
    by_cases present : book.exec.execQueue.any fun entry => entry.idx == idx
    · rw [if_pos present]
      simp [Book.exec, List.eraseP_map, Function.comp_def]
    · rw [if_neg present]
      have absent : ∀ entry ∈ book.queue, ¬ (entry.2.idx == idx) = true := by
        simpa [Book.exec] using present
      rw [List.eraseP_of_forall_not absent]
  | next =>
    rw [Book.call, PanExec.apply, PanExec.getNextEntry]
    have entries := takeTicket_entries book.queue
    cases queue : book.queue with
    | nil => simp [Book.exec, queue, takeTicket]
    | cons head rest =>
      rw [if_neg (by simp [Book.exec, queue])]
      change PanExec.takeValid book.exec.execQueue = _ at entries
      rw [entries, queue]
      cases takeTicket (head :: rest) with
      | none => rfl
      | some taken => rfl

theorem Book.run_exec (calls : List Call) : (Book.run calls).exec = calls.foldl PanExec.apply .new := by
  have along : ∀ book : Book, (calls.foldl Book.call book).exec = calls.foldl PanExec.apply book.exec := by
    induction calls with
    | nil => exact fun _ => rfl
    | cons call rest ih =>
      intro book
      rw [List.foldl_cons, List.foldl_cons, ih, Book.call_exec]
  exact along Book.new

end Take

section Order

/-- The queue and the tickets returned stand in the order of the additions. -/
structure InOrder (book : Book) : Prop where
  queued : (book.queue.map Prod.fst).Pairwise (· < ·)
  known : ∀ entry ∈ book.queue, entry.1 < book.added
  history : book.returned.Pairwise (· < ·)
  past : ∀ ticket ∈ book.returned, ticket < book.added
  status : ∀ entry ∈ book.queue, entry.2.status = .QValid ↔ entry.1 ∉ book.returned
  waiting : ∀ entry ∈ book.queue, entry.1 ∉ book.returned →
    ∀ ticket ∈ book.returned, ticket < entry.1
  running : ∀ entry ∈ book.queue, entry.2.status = .QValid ∨ entry.2.status = .QExec

theorem inOrder_new : InOrder .new := by
  constructor <;> simp [Book.new]

theorem inOrder_add {book : Book} (order : InOrder book) (addr : BitVec 64) :
    InOrder (book.call (.add addr)) := by
  rw [Book.call]
  cases added : book.exec.addEntry addr with
  | none => exact order
  | some pair =>
    have fresh : book.added ∉ book.returned := fun member => Nat.lt_irrefl _ (order.past _ member)
    constructor
    · dsimp only
      rw [List.map_append, List.pairwise_append]
      refine ⟨order.queued, by simp, ?_⟩
      intro ticket member other last
      rcases List.mem_map.mp member with ⟨entry, old, rfl⟩
      rw [List.mem_singleton.mp last]
      exact order.known entry old
    · intro entry member
      rcases List.mem_append.mp member with old | last
      · exact Nat.lt_succ_of_lt (order.known entry old)
      · rw [List.mem_singleton.mp last]
        exact Nat.lt_succ_self _
    · exact order.history
    · exact fun ticket member => Nat.lt_succ_of_lt (order.past ticket member)
    · intro entry member
      rcases List.mem_append.mp member with old | last
      · exact order.status entry old
      · rw [List.mem_singleton.mp last]
        exact ⟨fun _ => fresh, fun _ => rfl⟩
    · intro entry member
      rcases List.mem_append.mp member with old | last
      · exact order.waiting entry old
      · rw [List.mem_singleton.mp last]
        exact fun _ => order.past
    · intro entry member
      rcases List.mem_append.mp member with old | last
      · exact order.running entry old
      · rw [List.mem_singleton.mp last]
        exact .inl rfl

theorem inOrder_remove {book : Book} (order : InOrder book) (idx : Nat) :
    InOrder (book.call (.remove idx)) := by
  have kept {entry : Ticketed} : entry ∈ (book.call (.remove idx)).queue → entry ∈ book.queue :=
    List.mem_of_mem_eraseP
  constructor
  · exact order.queued.sublist ((List.eraseP_sublist).map Prod.fst)
  · exact fun entry member => order.known entry (kept member)
  · exact order.history
  · exact order.past
  · exact fun entry member => order.status entry (kept member)
  · exact fun entry member => order.waiting entry (kept member)
  · exact fun entry member => order.running entry (kept member)

/-- GetNextEntry has returned all entries before the one it takes and none behind. -/
theorem taken_between {book : Book} (order : InOrder book) {before behind : List Ticketed} {taken : Ticketed}
    (split : book.queue = before ++ taken :: behind) (valid : taken.2.status = .QValid) :
    taken.1 ∉ book.returned ∧ (∀ ticket ∈ book.returned, ticket < taken.1) ∧
    ∀ entry ∈ behind, taken.1 < entry.1 := by
  have member : taken ∈ book.queue := by simp [split]
  have fresh := (order.status taken member).mp valid
  refine ⟨fresh, order.waiting taken member fresh, ?_⟩
  have sorted := order.queued
  rw [split, List.map_append, List.pairwise_append, List.map_cons, List.pairwise_cons] at sorted
  exact fun entry later => sorted.2.1.1 entry.1 (List.mem_map_of_mem later)

theorem inOrder_next {book : Book} (order : InOrder book) : InOrder (book.call .next) := by
  rw [Book.call]
  cases takes : takeTicket book.queue with
  | none => exact order
  | some pair =>
    rcases pair with ⟨taken, after⟩
    have ⟨before, behind, split, earlier, valid, left⟩ := takeTicket_some takes
    have ⟨fresh, newest, later⟩ := taken_between order split valid
    subst left
    have old {entry : Ticketed} (side : entry ∈ before ∨ entry ∈ behind) : entry ∈ book.queue := by
      rw [split]
      rcases side with front | back
      · exact List.mem_append_left _ front
      · exact List.mem_append_right _ (List.mem_cons_of_mem _ back)
    have place {entry : Ticketed}
        (member : entry ∈ before ++ (taken.1, { taken.2 with status := .QExec }) :: behind) :
        entry ∈ before ∨ entry = (taken.1, { taken.2 with status := .QExec }) ∨ entry ∈ behind := by
      simpa using member
    have queued := order.queued
    rw [split, List.map_append, List.map_cons] at queued
    have back_valid {entry : Ticketed} (back : entry ∈ behind) :
        entry.1 ∉ book.returned :=
      fun member => Nat.lt_asymm (newest _ member) (later entry back)
    have front_given {entry : Ticketed} (front : entry ∈ before) : entry.1 ∈ book.returned :=
      not_not.mp fun absent => earlier entry front ((order.status entry (old (.inl front))).mpr absent)
    constructor
    · simpa using queued
    · intro entry member
      rcases place member with front | rfl | back
      · exact order.known entry (old (.inl front))
      · exact order.known taken (by simp [split])
      · exact order.known entry (old (.inr back))
    · rw [List.pairwise_append]
      exact ⟨order.history, by simp, fun ticket member other last =>
        (List.mem_singleton.mp last).symm ▸ newest ticket member⟩
    · intro ticket member
      rcases List.mem_append.mp member with given | last
      · exact order.past ticket given
      · rw [List.mem_singleton.mp last]
        exact order.known taken (by simp [split])
    · intro entry member
      dsimp only
      rw [List.mem_append, List.mem_singleton]
      rcases place member with front | rfl | back
      · have given := front_given front
        exact ⟨fun valid => absurd valid (earlier entry front), fun absent => absurd (.inl given) absent⟩
      · simp
      · have apart : entry.1 ≠ taken.1 := (Nat.ne_of_lt (later entry back)).symm
        rw [order.status entry (old (.inr back))]
        simp [apart]
    · intro entry member absent ticket given
      dsimp only at absent given
      rw [List.mem_append, List.mem_singleton, not_or] at absent
      rcases place member with front | rfl | back
      · exact absurd (front_given front) absent.1
      · exact absurd rfl absent.2
      · rcases List.mem_append.mp given with earlier | last
        · exact Nat.lt_trans (newest ticket earlier) (later entry back)
        · rw [List.mem_singleton.mp last]
          exact later entry back
    · intro entry member
      rcases place member with front | rfl | back
      · exact order.running entry (old (.inl front))
      · exact .inr rfl
      · exact order.running entry (old (.inr back))

theorem inOrder_run (calls : List Call) : InOrder (Book.run calls) := by
  have along : ∀ book : Book, InOrder book → InOrder (calls.foldl Book.call book) := by
    induction calls with
    | nil => exact fun _ order => order
    | cons call rest ih =>
      intro book order
      rw [List.foldl_cons]
      apply ih
      cases call with
      | add addr => exact inOrder_add order addr
      | remove idx => exact inOrder_remove order idx
      | next => exact inOrder_next order
  exact along _ inOrder_new

end Order

section Identity

/-- The indices tell the entries of a queue apart, and each call acts on the one its index was given to. -/
structure Identified (exec : PanExec) : Prop where
  distinct : (exec.execQueue.map PanEntry.idx).Nodup
  remove : ∀ before entry behind, exec.execQueue = before ++ entry :: behind →
    exec.removeEntry entry.idx = some { exec with execQueue := before ++ behind }
  status : ∀ entry ∈ exec.execQueue, exec.statusEntry entry.idx = entry.status
  absent : ∀ idx, (∀ entry ∈ exec.execQueue, entry.idx ≠ idx) →
    exec.removeEntry idx = none ∧ exec.statusEntry idx = .QError
  full : ∀ addr, exec.addEntry addr = none ↔ exec.execQueue.length = maxEntry

/-- An addition is one of the 63 that follow the addition of any entry still in the queue. -/
def Young (book : Book) : Call → Prop
  | .add _ => book.queue.length ≠ maxEntry → ∀ entry ∈ book.queue, book.added < entry.1 + maxEntry
  | .remove _ => True
  | .next => True

instance (book : Book) : (call : Call) → Decidable (Young book call)
  | .add _ => inferInstanceAs (Decidable (_ → _))
  | .remove _ => .isTrue trivial
  | .next => .isTrue trivial

def AllYoung : Book → List Call → Prop
  | _, [] => True
  | book, call :: rest => Young book call ∧ AllYoung (book.call call) rest

instance allYoungDec : (book : Book) → (calls : List Call) → Decidable (AllYoung book calls)
  | _, [] => .isTrue trivial
  | book, call :: rest =>
    have := allYoungDec (book.call call) rest
    inferInstanceAs (Decidable (_ ∧ _))

theorem identified {exec : PanExec} (distinct : (exec.execQueue.map PanEntry.idx).Nodup) :
    Identified exec where
  distinct := distinct
  remove := by
    intro before entry behind split
    rw [split, List.map_append, List.map_cons, List.nodup_append] at distinct
    have apart : ∀ other ∈ before, ¬ (other.idx == entry.idx) = true := by
      intro other front same
      exact distinct.2.2 _ (List.mem_map_of_mem front) _ List.mem_cons_self (by simpa using same)
    rw [PanExec.removeEntry, if_pos (by simp [split]), split, List.eraseP_append_right _ apart]
    simp
  status := by
    intro entry member
    rcases List.append_of_mem member with ⟨before, behind, split⟩
    rw [split, List.map_append, List.map_cons, List.nodup_append] at distinct
    have apart : ∀ other ∈ before, ¬ (other.idx == entry.idx) = true := by
      intro other front same
      exact distinct.2.2 _ (List.mem_map_of_mem front) _ List.mem_cons_self (by simpa using same)
    rw [PanExec.statusEntry, split, List.find?_append, List.find?_eq_none.mpr apart]
    simp
  absent := by
    intro idx absent
    have none_found : ∀ entry ∈ exec.execQueue, ¬ (entry.idx == idx) = true := by
      simpa using absent
    constructor
    · rw [PanExec.removeEntry, if_neg]
      simpa using absent
    · rw [PanExec.statusEntry, List.find?_eq_none.mpr none_found]
  full := by
    intro addr
    rw [PanExec.addEntry]
    by_cases full : exec.execQueue.length = maxEntry
    · simp [full]
    · simp [full]

/-- An index is the number of its addition, as far as 64 tells it. -/
structure Stamped (book : Book) : Prop where
  counter : book.curEntry = book.added % maxEntry
  idx : ∀ entry ∈ book.queue, entry.2.idx = (entry.1 + 1) % maxEntry
  young : ∀ entry ∈ book.queue, book.added ≤ entry.1 + maxEntry
  order : InOrder book

theorem newEntry_stamp {book : Book} (counter : book.curEntry = book.added % maxEntry) :
    book.exec.getNewEntry = (book.added + 1) % maxEntry := by
  change (if maxEntry ≤ book.curEntry + 1 then 0 else book.curEntry + 1) = _
  rw [counter]
  unfold maxEntry
  split <;> omega

theorem stamped_distinct {book : Book} (stamped : Stamped book) :
    (book.exec.execQueue.map PanEntry.idx).Nodup := by
  have sorted := stamped.order.queued
  rw [List.pairwise_map] at sorted
  change ((book.queue.map Prod.snd).map PanEntry.idx).Nodup
  rw [List.map_map, List.Nodup, List.pairwise_map]
  refine sorted.imp_of_mem ?_
  intro first second one two less same
  change first.2.idx = second.2.idx at same
  have late := stamped.order.known second two
  have early := stamped.young first one
  rw [stamped.idx first one, stamped.idx second two] at same
  unfold maxEntry at early same
  omega

theorem stamped_new : Stamped .new where
  counter := rfl
  idx := by simp [Book.new]
  young := by simp [Book.new]
  order := inOrder_new

theorem stamped_add {book : Book} (stamped : Stamped book) (addr : BitVec 64)
    (young : Young book (.add addr)) : Stamped (book.call (.add addr)) := by
  have order := inOrder_add stamped.order addr
  rw [Book.call, PanExec.addEntry] at order ⊢
  by_cases full : book.exec.execQueue.length = maxEntry
  · rw [if_pos full]
    exact stamped
  · rw [if_neg full] at order ⊢
    have recent := young (by simpa [Book.exec] using full)
    constructor
    · exact newEntry_stamp stamped.counter
    · intro entry member
      rcases List.mem_append.mp member with old | last
      · exact stamped.idx entry old
      · rw [List.mem_singleton.mp last]
        exact newEntry_stamp stamped.counter
    · intro entry member
      rcases List.mem_append.mp member with old | last
      · exact recent entry old
      · rw [List.mem_singleton.mp last]
        exact Nat.add_le_add_left (by decide) _
    · exact order

theorem stamped_remove {book : Book} (stamped : Stamped book) (idx : Nat) :
    Stamped (book.call (.remove idx)) where
  counter := stamped.counter
  idx := fun entry member => stamped.idx entry (List.mem_of_mem_eraseP member)
  young := fun entry member => stamped.young entry (List.mem_of_mem_eraseP member)
  order := inOrder_remove stamped.order idx

theorem stamped_next {book : Book} (stamped : Stamped book) : Stamped (book.call .next) := by
  have order := inOrder_next stamped.order
  rw [Book.call] at order ⊢
  cases takes : takeTicket book.queue with
  | none => exact stamped
  | some pair =>
    rcases pair with ⟨taken, after⟩
    have ⟨before, behind, split, _, _, left⟩ := takeTicket_some takes
    rw [takes] at order
    have old {entry : Ticketed} (member : entry ∈ after) :
        ∃ other ∈ book.queue, other.1 = entry.1 ∧ other.2.idx = entry.2.idx := by
      rw [left, List.mem_append, List.mem_cons] at member
      rw [split]
      rcases member with front | rfl | back
      · exact ⟨entry, by simp [front], rfl, rfl⟩
      · exact ⟨taken, by simp, rfl, rfl⟩
      · exact ⟨entry, by simp [back], rfl, rfl⟩
    constructor
    · exact stamped.counter
    · intro entry member
      have ⟨other, held, ticket, idx⟩ := old member
      rw [← idx, ← ticket]
      exact stamped.idx other held
    · intro entry member
      have ⟨other, held, ticket, _⟩ := old member
      rw [← ticket]
      exact stamped.young other held
    · exact order

theorem stamped_run {calls : List Call} (careful : AllYoung .new calls) : Stamped (Book.run calls) := by
  have along : ∀ book : Book, Stamped book → AllYoung book calls →
      Stamped (calls.foldl Book.call book) := by
    clear careful
    induction calls with
    | nil => exact fun _ stamped _ => stamped
    | cons call rest ih =>
      rintro book stamped ⟨young, careful⟩
      rw [List.foldl_cons]
      refine ih _ ?_ careful
      cases call with
      | add addr => exact stamped_add stamped addr young
      | remove idx => exact stamped_remove stamped idx
      | next => exact stamped_next stamped
  exact along _ stamped_new careful

/-- An addition that is not young takes the index of an entry that is still there. -/
theorem young_iff {book : Book} (stamped : Stamped book) (addr : BitVec 64) :
    Young book (.add addr) ↔ ((book.call (.add addr)).exec.execQueue.map PanEntry.idx).Nodup := by
  constructor
  · exact fun young => stamped_distinct (stamped_add stamped addr young)
  · intro distinct room entry member
    have full : ¬ book.exec.execQueue.length = maxEntry := by simpa [Book.exec] using room
    rw [Book.call, PanExec.addEntry, if_neg full] at distinct
    dsimp only [Book.exec] at distinct
    rw [List.map_append, List.map_append, List.nodup_append] at distinct
    have apart := distinct.2.2 entry.2.idx
      (List.mem_map_of_mem (List.mem_map_of_mem member)) _ List.mem_cons_self
    change entry.2.idx ≠ book.exec.getNewEntry at apart
    rw [newEntry_stamp stamped.counter, stamped.idx entry member] at apart
    refine Nat.lt_of_le_of_ne (stamped.young entry member) ?_
    intro oldest
    apply apart
    unfold maxEntry at oldest ⊢
    omega

/-- Indices identify the entries as long as every addition is young, and no longer. -/
theorem indices_identify (calls : List Call) (careful : AllYoung .new calls) :
    (Book.run calls).exec = calls.foldl PanExec.apply .new ∧ Identified (Book.run calls).exec ∧
    ∀ addr, Young (Book.run calls) (.add addr) ↔ Identified ((Book.run calls).call (.add addr)).exec := by
  have stamped := stamped_run careful
  refine ⟨Book.run_exec calls, identified (stamped_distinct stamped), ?_⟩
  intro addr
  rw [young_iff stamped]
  exact ⟨identified, Identified.distinct⟩

theorem indices_identify_two :
    Identified (Book.run [.add 8, .next, .remove 1, .add 16]).exec :=
  (indices_identify [.add 8, .next, .remove 1, .add 16] (by decide)).2.1

/-- An entry that stays while 63 others come and go: the next addition gets its index. -/
theorem indices_clash : ¬ ∀ calls : List Call, Identified (calls.foldl PanExec.apply .new) := by
  intro every
  have distinct := (every (.add 8 ::
    (List.range 63).flatMap (fun turn => [.add 16, .remove ((turn + 2) % 64)]) ++ [.add 24])).distinct
  revert distinct
  decide +kernel

end Identity

section Dispatch

/-- What a book keeps of an entry whatever is called. -/
def kept (entry : Ticketed) : Nat × Nat × BitVec 64 := (entry.1, entry.2.idx, entry.2.addr)

/-- GetNextEntry on a book and the order of its queue after any call. -/
structure Dispatches (book : Book) : Prop where
  once : book.returned.Pairwise (· < ·)
  queued : (book.queue.map Prod.fst).Pairwise (· < ·)
  exec_iff : book.exec.getNextEntry.1 = .QExec ↔ ∃ entry ∈ book.queue, entry.1 ∉ book.returned
  null_iff : book.exec.getNextEntry.1 = .QNull ↔ book.queue = []
  idle : book.exec.getNextEntry.1 ≠ .QExec → book.call .next = book
  taken : book.exec.getNextEntry.1 = .QExec → ∃ before entry behind,
    book.queue = before ++ entry :: behind ∧ (∀ other ∈ before, other.1 ∈ book.returned) ∧
    entry.1 ∉ book.returned ∧ book.exec.takenIdx = some entry.2.idx ∧
    book.exec.getNextEntry.2.1 = entry.2.addr ∧
    (book.call .next).returned = book.returned ++ [entry.1] ∧
    (book.call .next).queue = before ++ (entry.1, { entry.2 with status := .QExec }) :: behind
  add_keeps : ∀ addr, ∃ last, (book.call (.add addr)).queue = book.queue ++ last
  remove_keeps : ∀ idx, (book.call (.remove idx)).queue.Sublist book.queue
  next_keeps : (book.call .next).queue.map kept = book.queue.map kept

theorem nextStatus (book : Book) : book.exec.getNextEntry.1 =
    if book.queue = [] then .QNull
    else if (takeTicket book.queue).isSome then .QExec else .QError := by
  have entries := takeTicket_entries book.queue
  change PanExec.takeValid book.exec.execQueue = _ at entries
  rw [PanExec.getNextEntry]
  by_cases empty : book.queue = []
  · rw [if_pos empty, if_pos (by simp [Book.exec, empty])]
  · rw [if_neg empty, if_neg (by simpa [Book.exec] using empty), entries]
    cases takeTicket book.queue with
    | none => rfl
    | some taken => rfl

theorem takes_iff {book : Book} (order : InOrder book) :
    (takeTicket book.queue).isSome = true ↔ ∃ entry ∈ book.queue, entry.1 ∉ book.returned := by
  rw [Option.isSome_iff_ne_none, ne_eq, takeTicket_none, not_forall]
  constructor
  · rintro ⟨entry, waits⟩
    rw [Classical.not_imp, not_not] at waits
    exact ⟨entry, waits.1, (order.status entry waits.1).mp waits.2⟩
  · rintro ⟨entry, member, absent⟩
    exact ⟨entry, fun never => never member ((order.status entry member).mpr absent)⟩

theorem exec_iff {book : Book} (order : InOrder book) :
    book.exec.getNextEntry.1 = .QExec ↔ ∃ entry ∈ book.queue, entry.1 ∉ book.returned := by
  rw [← takes_iff order, nextStatus]
  by_cases empty : book.queue = []
  · simp [empty, takeTicket]
  · rw [if_neg empty]
    cases (takeTicket book.queue).isSome <;> simp

theorem next_idle {book : Book} (order : InOrder book) (other : book.exec.getNextEntry.1 ≠ .QExec) :
    takeTicket book.queue = none := by
  rw [ne_eq, exec_iff order, ← takes_iff order] at other
  simpa using other

theorem next_taken {book : Book} (order : InOrder book) (takes : book.exec.getNextEntry.1 = .QExec) :
    ∃ before entry behind,
      book.queue = before ++ entry :: behind ∧ (∀ other ∈ before, other.1 ∈ book.returned) ∧
      entry.1 ∉ book.returned ∧ book.exec.takenIdx = some entry.2.idx ∧
      book.exec.getNextEntry.2.1 = entry.2.addr ∧
      (book.call .next).returned = book.returned ++ [entry.1] ∧
      (book.call .next).queue = before ++ (entry.1, { entry.2 with status := .QExec }) :: behind := by
  rw [exec_iff order, ← takes_iff order, Option.isSome_iff_exists] at takes
  rcases takes with ⟨⟨taken, after⟩, takes⟩
  have ⟨before, behind, split, earlier, valid, left⟩ := takeTicket_some takes
  have entries := takeTicket_entries book.queue
  change PanExec.takeValid book.exec.execQueue = _ at entries
  refine ⟨before, taken, behind, split, ?_, (taken_between order split valid).1, ?_, ?_, ?_, ?_⟩
  · intro other front
    have member : other ∈ book.queue := by
      rw [split]
      exact List.mem_append_left _ front
    exact not_not.mp fun absent => earlier other front ((order.status other member).mpr absent)
  · have skipped : ∀ entry ∈ before.map Prod.snd, ¬ (entry.status == .QValid) = true := by
      simpa using fun entry ticket front => earlier (ticket, entry) front
    rw [PanExec.takenIdx, Book.exec, split, List.map_append, List.find?_append,
      List.find?_eq_none.mpr skipped, Option.none_or, List.map_cons, List.find?_cons_of_pos]
    · rfl
    · simpa using valid
  · rw [PanExec.getNextEntry, if_neg (by simp [Book.exec, split]), entries, takes]
    rfl
  · rw [Book.call, takes]
  · rw [Book.call, takes, left]

theorem dispatches {book : Book} (order : InOrder book) : Dispatches book where
  once := order.history
  queued := order.queued
  exec_iff := exec_iff order
  null_iff := by
    rw [nextStatus]
    by_cases empty : book.queue = []
    · simp [empty]
    · rw [if_neg empty]
      cases (takeTicket book.queue).isSome <;> simp [empty]
  idle := by
    intro other
    rw [Book.call, next_idle order other]
  taken := next_taken order
  add_keeps := by
    intro addr
    rw [Book.call]
    cases book.exec.addEntry addr with
    | none => exact ⟨[], by simp⟩
    | some pair => exact ⟨_, rfl⟩
  remove_keeps := fun _ => List.eraseP_sublist
  next_keeps := by
    rw [Book.call]
    cases takes : takeTicket book.queue with
    | none => rfl
    | some pair =>
      rcases pair with ⟨taken, after⟩
      have ⟨before, behind, split, _, _, left⟩ := takeTicket_some takes
      rw [left, split, List.map_append, List.map_append, List.map_cons, List.map_cons]
      rfl

/-- GetNextEntry hands out the entries in the order of addition, each at most once. -/
theorem dispatched_in_order (calls : List Call) :
    (Book.run calls).exec = calls.foldl PanExec.apply .new ∧ Dispatches (Book.run calls) :=
  ⟨Book.run_exec calls, dispatches (inOrder_run calls)⟩

end Dispatch
end RevCPU.Pan
