import RevCPU.PanRun
/-!
Requests and responses of a device. Beside a run stands a ledger: which request every response
answers and which request every queued read is for. A response that is pushed while a packet is
handled is for that packet; the responses of a tick are for the reads that are due, in queue order.
-/
namespace RevCPU.Pan
open Mem MemRefine

structure Asked where
  event : PanNicEvent
  cost : Nat      -- the cost drawn for a read
  arrived : Nat   -- the ticks of the read queue before it

structure Ledger where
  asked : List Asked
  answers : List (Nat × PanNicEvent × Int)
  waiting : List Nat
  ticks : Nat

/-- A packet in the mailbox is a response for a request: to its sender and with its tag. -/
def Replies (event : PanNicEvent) (post : PanNicEvent × Int) : Prop :=
  post.2 = event.src ∧ post.1.tag = event.tag ∧ post.1.opcode.responds = true

def responses (posts : List (PanNicEvent × Int)) : List (PanNicEvent × Int) :=
  posts.filter fun post => post.1.opcode.responds

def newPosts (cpu after : PanCPU) : List (PanNicEvent × Int) := after.posted.drop cpu.posted.length

def drawn (cpu : PanCPU) (rand : BitVec 32) : Nat :=
  match cpu.procs.head? with
  | some core => (randCost core.feature rand).toNat
  | none => 0

namespace Ledger

def empty : Ledger := ⟨[], [], [], 0⟩

/-- The requests of the queued reads, with the reads as the next tick counts them. -/
def reads (book : Ledger) (cpu : PanCPU) : List (Nat × ReadRqst) :=
  book.waiting.zip (cpu.readQueue.map PanCPU.elapse)

def record (book : Ledger) (cpu after : PanCPU) : Input → Ledger
  | .deliver event rand _ =>
    { asked := book.asked ++ [⟨event, drawn cpu rand, book.ticks⟩]
      answers := book.answers ++ (newPosts cpu after).map fun post => (book.asked.length, post)
      waiting := book.waiting ++
        List.replicate (after.readQueue.length - cpu.readQueue.length) book.asked.length
      ticks := book.ticks }
  | .read _ =>
    { book with
      answers := book.answers ++
        (((book.reads cpu).filter fun read => read.2.cost == 0).map Prod.fst).zip (newPosts cpu after)
      waiting := ((book.reads cpu).filter fun read => read.2.cost != 0).map Prod.fst
      ticks := book.ticks + 1 }
  | _ => book

def answersTo (book : Ledger) (number : Nat) : List (Nat × PanNicEvent × Int) :=
  book.answers.filter fun answer => answer.1 == number

end Ledger

def recorded (cpu : PanCPU) (book : Ledger) : List Input → Except PanFault (PanCPU × Ledger)
  | [] => .ok (cpu, book)
  | input :: rest =>
    match step cpu input with
    | .error fault => .error fault
    | .ok after => recorded after (book.record cpu after input) rest

/-- Every request has its one response, at once or when its read cost has elapsed, and the mailbox
has seen no other response. -/
structure Paired (book : Ledger) (cpu : PanCPU) : Prop where
  complete : book.answers.map Prod.snd = responses cpu.posted
  once : ∀ number asked, book.asked[number]? = some asked →
    (∃ post, book.answersTo number = [(number, post)] ∧ Replies asked.event post) ∨
      book.answersTo number = [] ∧ asked.event.opcode.reads = true ∧
        book.ticks < asked.arrived + max 1 asked.cost

structure Fresh (cpu : PanCPU) : Prop where
  device : cpu.nic.isHost = false
  net : cpu.net = []
  sendMB : cpu.sendMB = []
  readQueue : cpu.readQueue = []

/-- The steps considered: requests that a handler can serve, whose SyncGet carries the reserved token,
and accesses of the queues that the memory accepts. -/
def Allowed (cpu : PanCPU) : Input → Prop
  | .deliver event _ _ => event.opcode.requests = true ∧ Ready cpu event ∧
      (event.opcode = .SyncGet → cpu.nic.checkToken event.token = true)
  | .send => cpu.sendMB ≠ [] → cpu.readyForRevoke = true → Usable cpu.mem completionAddr 8
  | .read _ => ∀ rqst ∈ due (cpu.readQueue.map PanCPU.elapse),
      Usable cpu.mem rqst.addr.toNat rqst.size.toNat
  | .post event _ => event.opcode.responds = false
  | .outside .. => True

def Orderly (cpu : PanCPU) : List Input → Prop
  | [] => True
  | input :: rest => Allowed cpu input ∧ ∀ after, step cpu input = .ok after → Orderly after rest

/-- The read in the queue for a request, whose remaining cost is what the ticks have left of it. -/
def Waits (book : Ledger) (number : Nat) (rqst : ReadRqst) : Prop :=
  ∃ asked, book.asked[number]? = some asked ∧ asked.event.opcode.reads = true ∧
    rqst.tag = asked.event.tag ∧ rqst.src = asked.event.src ∧
    rqst.cost.toNat + book.ticks = asked.cost + asked.arrived ∧
    (book.ticks = asked.arrived ∨ rqst.cost ≠ 0)

structure Matched (book : Ledger) (cpu : PanCPU) : Prop where
  device : cpu.nic.isHost = false
  complete : book.answers.map Prod.snd = responses cpu.posted
  numbers : (book.answers.map Prod.fst ++ book.waiting).Perm (List.range book.asked.length)
  addressed : ∀ answer ∈ book.answers, ∃ asked, book.asked[answer.1]? = some asked ∧
    Replies asked.event answer.2
  queued : List.Forall₂ (Waits book) book.waiting cpu.readQueue

section Matched
variable {book : Ledger} {cpu after : PanCPU}

theorem Fresh.matched (start : Fresh cpu) : Matched .empty cpu where
  device := start.device
  complete := by simp [Ledger.empty, responses, PanCPU.posted, start.net, start.sendMB]
  numbers := by simp [Ledger.empty]
  addressed := fun answer member => absurd member List.not_mem_nil
  queued := by
    rw [start.readQueue]
    exact .nil

theorem Matched.paired (matched : Matched book cpu) : Paired book cpu := by
  refine ⟨matched.complete, fun number asked found => ?_⟩
  have inside : number < book.asked.length := (List.getElem?_eq_some_iff.mp found).1
  have total : (book.answers.map Prod.fst).count number + book.waiting.count number = 1 := by
    rw [← List.count_append, matched.numbers.count_eq]
    exact List.count_eq_one_of_mem List.nodup_range (List.mem_range.mpr inside)
  have counted : (book.answersTo number).length = (book.answers.map Prod.fst).count number := by
    rw [List.count, List.countP_map, List.countP_eq_length_filter]
    rfl
  by_cases answered : book.answersTo number = []
  · rw [answered, List.length_nil] at counted
    have member : number ∈ book.waiting := List.count_pos_iff.mp (by omega)
    obtain ⟨index, bound, named⟩ := List.getElem_of_mem member
    have queued := matched.queued.get bound (by rw [← matched.queued.length_eq]; exact bound)
    obtain ⟨entry, same, reads, -, -, cost, running⟩ := queued
    simp only [List.get_eq_getElem, named, found, Option.some.injEq] at same
    subst same
    refine .inr ⟨answered, reads, ?_⟩
    rcases running with early | positive
    · omega
    · have : 0 < (cpu.readQueue.get ⟨index, by rw [← matched.queued.length_eq]; exact bound⟩).cost.toNat := by
        apply Nat.pos_of_ne_zero
        exact fun zero => positive (BitVec.eq_of_toNat_eq zero)
      omega
  · have one : (book.answersTo number).length = 1 := by
      have positive := List.length_pos_iff.mpr answered
      omega
    obtain ⟨answer, only⟩ := List.length_eq_one_iff.mp one
    have member : answer ∈ book.answersTo number := by rw [only]; exact List.mem_singleton_self _
    obtain ⟨recordedAnswer, named⟩ := List.mem_filter.mp member
    have same : answer.1 = number := by simpa using named
    obtain ⟨entry, found', replies⟩ := matched.addressed answer recordedAnswer
    rw [same, found, Option.some.injEq] at found'
    subst found'
    exact .inl ⟨answer.2, by rw [only, ← same], replies⟩

theorem newPosts_append {replies : List (PanNicEvent × Int)}
    (posted : after.posted = cpu.posted ++ replies) : newPosts cpu after = replies := by
  rw [newPosts, posted, List.drop_left]

theorem responses_append (posts replies : List (PanNicEvent × Int))
    (responds : ∀ post ∈ replies, post.1.opcode.responds = true) :
    responses (posts ++ replies) = responses posts ++ replies := by
  rw [responses, List.filter_append, List.filter_eq_self.mpr responds]
  rfl

-- An earlier request keeps its number, and the reads that wait for it keep waiting.
theorem Waits.grow {number : Nat} {rqst : ReadRqst} {later : Ledger} {asked : List Asked}
    (waits : Waits book number rqst) (grown : later.asked = book.asked ++ asked)
    (ticks : later.ticks = book.ticks) : Waits later number rqst := by
  obtain ⟨entry, found, rest⟩ := waits
  refine ⟨entry, ?_, by rwa [ticks]⟩
  rw [grown, List.getElem?_append_left (List.getElem?_eq_some_iff.mp found).1, found]

theorem Matched.answered (matched : Matched book cpu) {event : PanNicEvent} {rand : BitVec 32}
    {fresh : Nat → Buffer} (answered : Answered cpu event after) :
    Matched (book.record cpu after (.deliver event rand fresh)) after := by
  obtain ⟨reply, posted, tag, responds⟩ := answered.posted
  have fresh : newPosts cpu after = [(reply, event.src)] := newPosts_append posted
  have same : after.readQueue.length - cpu.readQueue.length = 0 := by
    rw [answered.readQueue, Nat.sub_self]
  constructor
  · rw [answered.isHost, matched.device]
  · simp only [Ledger.record, fresh, List.map_append, List.map_map, matched.complete]
    rw [posted, responses_append _ _ (by simpa using responds)]
    rfl
  · simp only [Ledger.record, fresh, same, List.map_append, List.map_cons, List.map_nil,
      List.replicate_zero, List.append_nil, List.length_append, List.length_singleton,
      List.range_succ]
    refine List.Perm.trans ?_ (matched.numbers.append_right _)
    rw [List.append_assoc, List.append_assoc]
    exact List.Perm.append_left _ List.perm_append_comm
  · intro answer member
    simp only [Ledger.record, fresh, List.map_cons, List.map_nil, List.mem_append,
      List.mem_singleton] at member ⊢
    rcases member with old | new
    · obtain ⟨asked, found, replies⟩ := matched.addressed answer old
      refine ⟨asked, ?_, replies⟩
      rw [List.getElem?_append_left (List.getElem?_eq_some_iff.mp found).1, found]
    · subst new
      exact ⟨_, List.getElem?_concat_length, rfl, tag, responds⟩
  · rw [answered.readQueue]
    simp only [Ledger.record, same, List.replicate_zero, List.append_nil]
    exact matched.queued.imp fun number rqst waits => waits.grow rfl rfl

theorem Matched.queue (matched : Matched book cpu) {event : PanNicEvent} {rand : BitVec 32}
    {fresh : Nat → Buffer} (reads : event.opcode.reads = true)
    (pushed : cpu.pushRead event rand = .ok after) :
    Matched (book.record cpu after (.deliver event rand fresh)) after := by
  cases first : cpu.procs.head? with
  | none => simp [PanCPU.pushRead, first] at pushed
  | some core =>
    rw [pushRead_ok first, Except.ok.injEq] at pushed
    subst pushed
    have none : newPosts cpu { cpu with readQueue := cpu.readQueue ++
        [⟨event.tag, event.size, randCost core.feature rand, event.src, event.addr⟩] } = [] :=
      newPosts_append (List.append_nil _).symm
    have cost : drawn cpu rand = (randCost core.feature rand).toNat := by rw [drawn, first]
    constructor
    · exact matched.device
    · simp only [Ledger.record, none, List.map_nil, List.append_nil]
      exact matched.complete
    · simp only [Ledger.record, none, List.map_nil, List.append_nil, List.length_append,
        List.length_singleton, Nat.add_sub_cancel_left, List.replicate_one, List.range_succ]
      rw [← List.append_assoc]
      exact matched.numbers.append_right _
    · intro answer member
      simp only [Ledger.record, none, List.map_nil, List.append_nil] at member ⊢
      obtain ⟨asked, found, replies⟩ := matched.addressed answer member
      refine ⟨asked, ?_, replies⟩
      rw [List.getElem?_append_left (List.getElem?_eq_some_iff.mp found).1, found]
    · simp only [Ledger.record, none, List.map_nil, List.append_nil, List.length_append,
        List.length_singleton, Nat.add_sub_cancel_left, List.replicate_one]
      refine List.rel_append (matched.queued.imp fun number rqst waits => waits.grow rfl rfl) ?_
      refine .cons ⟨⟨event, drawn cpu rand, book.ticks⟩, ?_, reads, rfl, rfl, ?_, .inl rfl⟩ .nil
      · exact List.getElem?_concat_length
      · rw [cost]

-- A tick takes one off every cost and hands the reads that reach 0 over to the responses.
theorem Waits.elapse {number : Nat} {rqst : ReadRqst} {later : Ledger}
    (waits : Waits book number rqst) (same : later.asked = book.asked)
    (ticks : later.ticks = book.ticks + 1) (remains : (PanCPU.elapse rqst).cost ≠ 0) :
    Waits later number (PanCPU.elapse rqst) := by
  obtain ⟨asked, found, reads, tag, src, cost, -⟩ := waits
  have ⟨sameTag, sameSrc⟩ := elapse_fields rqst
  have lowered := elapse_cost remains
  exact ⟨asked, by rwa [same], reads, by rw [sameTag, tag], by rw [sameSrc, src], by omega, .inr remains⟩

theorem related_zip {α β γ : Type} {relation : α → β → Prop} {xs : List α} {ys : List β}
    (related : List.Forall₂ relation xs ys) (shown : β → γ) :
    ∀ pair ∈ xs.zip (ys.map shown), ∃ y, pair.2 = shown y ∧ relation pair.1 y := by
  induction related with
  | nil => exact fun pair member => absurd member List.not_mem_nil
  | cons head _ ih =>
    intro pair member
    rcases List.mem_cons.mp member with first | later
    · subst first
      exact ⟨_, rfl, head⟩
    · exact ih pair later

theorem zip_related {α β γ : Type} {relation : α → β → Prop} {xs : List α} {ys : List β}
    (related : List.Forall₂ relation xs ys) (shown : α → γ) :
    ∀ pair ∈ (xs.map shown).zip ys, ∃ x ∈ xs, pair.1 = shown x ∧ relation x pair.2 := by
  induction related with
  | nil => exact fun pair member => absurd member List.not_mem_nil
  | cons head _ ih =>
    intro pair member
    rcases List.mem_cons.mp member with first | later
    · subst first
      exact ⟨_, List.mem_cons_self .., rfl, head⟩
    · obtain ⟨x, inside, rest⟩ := ih pair later
      exact ⟨x, List.mem_cons_of_mem _ inside, rest⟩

theorem Matched.read (matched : Matched book cpu) {fresh : Nat → Buffer} (read : Read cpu after) :
    Matched (book.record cpu after (.read fresh)) after := by
  obtain ⟨replies, posted, each⟩ := read.posted
  have new : newPosts cpu after = replies := newPosts_append posted
  have lengths : book.waiting.length = (cpu.readQueue.map PanCPU.elapse).length := by
    rw [List.length_map, matched.queued.length_eq]
  have requests : (book.reads cpu).map Prod.fst = book.waiting := List.map_fst_zip lengths.le
  have rqsts : (book.reads cpu).map Prod.snd = cpu.readQueue.map PanCPU.elapse :=
    List.map_snd_zip lengths.ge
  have waits := related_zip matched.queued PanCPU.elapse
  rw [due, ← rqsts, List.filter_map, List.forall₂_map_left_iff] at each
  have answering := zip_related each Prod.fst
  have paired : ((book.reads cpu).filter fun pair => pair.2.cost == 0).length = replies.length :=
    each.length_eq
  have second : ((((book.reads cpu).filter fun pair => pair.2.cost == 0).map Prod.fst).zip
      replies).map Prod.snd = replies := List.map_snd_zip (by rw [List.length_map]; exact paired.ge)
  have responds : ∀ post ∈ replies, post.1.opcode.responds = true := by
    intro post member
    rw [← second] at member
    obtain ⟨answer, inside, rfl⟩ := List.mem_map.mp member
    obtain ⟨pair, -, -, -, -, responds⟩ := answering answer inside
    exact responds
  constructor
  · rw [read.nic, matched.device]
  · simp only [Ledger.record, new, List.map_append, matched.complete]
    rw [second, posted, responses_append _ _ responds]
  · simp only [Ledger.record, new, List.map_append]
    rw [List.map_fst_zip (by rw [List.length_map]; exact paired.le), List.append_assoc]
    refine List.Perm.trans (List.Perm.append_left _ ?_) matched.numbers
    rw [← List.map_append, ← requests]
    exact (List.filter_append_perm _ _).map _
  · intro answer member
    simp only [Ledger.record, new, List.mem_append] at member ⊢
    rcases member with old | now
    · exact matched.addressed answer old
    · obtain ⟨pair, inside, named, dest, tag, responds⟩ := answering answer now
      obtain ⟨rqst, shown, asked, found, -, sameTag, sameSrc, -⟩ :=
        waits pair (List.mem_filter.mp inside).1
      have fields := elapse_fields rqst
      refine ⟨asked, by rw [named, found], ?_, ?_, responds⟩
      · rw [dest, shown, fields.2, sameSrc]
      · rw [tag, shown, fields.1, sameTag]
  · rw [read.readQueue, left, ← rqsts, List.filter_map]
    simp only [Ledger.record]
    rw [List.forall₂_map_left_iff, List.forall₂_map_right_iff]
    refine List.forall₂_same.mpr fun pair inside => ?_
    obtain ⟨member, remains⟩ := List.mem_filter.mp inside
    obtain ⟨rqst, shown, waiting⟩ := waits pair member
    rw [shown] at remains ⊢
    exact waiting.elapse rfl rfl (by simpa using remains)

/-- A step that posts no response and leaves the read queue alone leaves the ledger as it is. -/
theorem Matched.quiet (matched : Matched book cpu) (device : after.nic.isHost = cpu.nic.isHost)
    (posted : responses after.posted = responses cpu.posted)
    (readQueue : after.readQueue = cpu.readQueue) : Matched book after where
  device := by rw [device, matched.device]
  complete := by rw [posted, matched.complete]
  numbers := matched.numbers
  addressed := matched.addressed
  queued := by
    rw [readQueue]
    exact matched.queued

theorem step_returns (device : cpu.nic.isHost = false) {input : Input}
    (allowed : Allowed cpu input) : ∃ after, step cpu input = .ok after := by
  cases input with
  | deliver event rand fresh => exact handle_returns allowed.1 device allowed.2.1 allowed.2.2
  | send => exact sendPANMessage_returns allowed
  | read fresh => exact processPANMemRead_returns allowed
  | post event dest => exact ⟨_, rfl⟩
  | outside mem procs exec zeroRqst => exact ⟨_, rfl⟩

theorem step_matched (matched : Matched book cpu) {input : Input} (allowed : Allowed cpu input)
    (stepped : step cpu input = .ok after) : Matched (book.record cpu after input) after := by
  cases input with
  | deliver event rand fresh =>
    obtain ⟨request, -, reserved⟩ := allowed
    by_cases reads : event.opcode.reads = true
    · by_cases accepted : cpu.nic.checkToken event.token = true
      · rw [step, handle_reads reads accepted] at stepped
        exact matched.queue reads stepped
      · -- A refused get is no SyncGet, so it is answered at once and not read.
        have refused : cpu.nic.checkToken event.token = false := by simpa using accepted
        have notSyncGet : event.opcode ≠ .SyncGet := fun named => accepted (reserved named)
        have notReserve : event.opcode ≠ .Reserve := by
          intro named
          rw [named] at reads
          exact absurd reads (by decide)
        rw [step, handle_refused request matched.device refused notSyncGet notReserve] at stepped
        cases stepped
        exact matched.answered (failed_answered .refl)
    · exact matched.answered (handle_answered request (by simpa using reads) stepped)
  | send =>
    have sent := sendPANMessage_sent stepped
    exact matched.quiet sent.isHost (by rw [sent.posted]) sent.readQueue
  | read fresh => exact matched.read (processPANMemRead_read stepped)
  | post event dest =>
    cases stepped
    refine matched.quiet rfl ?_ rfl
    have appended : (cpu.push event dest).posted = cpu.posted ++ [(event, dest)] :=
      (List.append_assoc ..).symm
    have request : event.opcode.responds = false := allowed
    rw [appended, responses, List.filter_append, List.filter_cons_of_neg (by simp [request]),
      List.filter_nil, List.append_nil]
    rfl
  | outside mem procs exec zeroRqst =>
    cases stepped
    exact matched.quiet rfl rfl rfl

theorem recorded_matched (matched : Matched book cpu) {inputs : List Input}
    (orderly : Orderly cpu inputs) :
    ∃ after later, recorded cpu book inputs = .ok (after, later) ∧ Matched later after := by
  induction inputs generalizing cpu book with
  | nil => exact ⟨cpu, book, rfl, matched⟩
  | cons input rest ih =>
    obtain ⟨allowed, onwards⟩ := orderly
    obtain ⟨after, stepped⟩ := step_returns matched.device allowed
    obtain ⟨last, later, ran, ends⟩ :=
      ih (step_matched matched allowed stepped) (onwards after stepped)
    refine ⟨last, later, ?_, ends⟩
    rw [recorded, stepped]
    exact ran

/-- In an orderly run every request has one response, at once or when its read cost has elapsed. -/
theorem requests_answered_once {start : PanCPU} (beginning : Fresh start) {inputs : List Input}
    (orderly : Orderly start inputs) :
    ∃ after book, recorded start .empty inputs = .ok (after, book) ∧ Paired book after := by
  obtain ⟨after, book, ran, matched⟩ := recorded_matched beginning.matched orderly
  exact ⟨after, book, ran, matched.paired⟩

end Matched

section Examples

/-- A device with one core, a memory whose stack is all there is, and the token 7 reserved. -/
def smallDevice : PanCPU where
  address := 1
  nic := ⟨false, true, 7⟩
  sendMB := []
  trackTags := []
  trackGets := []
  readQueue := []
  zeroRqst := []
  readyForRevoke := false
  revokeHasArrived := false
  pExec := .new
  mem := .new 2097152 4 1 0
  procs := [⟨{ features := 66, xlen := 64, minCost := 1, maxCost := 1 }, true, false, some default, 0⟩]
  symbolStart := 0
  net := []

/-- A get of the first bytes of the stack. -/
def stackGet (token : BitVec 32) (tag : BitVec 8) (src : Int) : PanNicEvent :=
  (PanNicEvent.new.buildSyncGet token tag 1047552 8).setSrc src

def wrongExec : PanNicEvent := { stackGet 6 4 5 with opcode := .Exec }

theorem stack_usable {mem : RevMem} (same : mem = .new 2097152 4 1 0) : Usable mem 1047552 8 := by
  subst same
  refine ⟨sized_stack_only 4, (untouched_new ..).coherent, by decide, by decide, ?_⟩
  exact touchable_of_valid (by decide) fun offset inside =>
    (valid_stack_only 4 _).mpr (by omega)

theorem requests_answered_once_get_exec :
    ∃ after book, recorded smallDevice .empty
      [.deliver (stackGet 7 3 5) 0 fun _ _ => 0, .deliver wrongExec 0 fun _ _ => 0,
        .read fun _ _ => 0] = .ok (after, book) ∧ Paired book after := by
  apply requests_answered_once ⟨rfl, rfl, rfl, rfl⟩
  refine ⟨⟨rfl, ⟨by decide, by decide, fun _ => trivial⟩, fun _ => rfl⟩, fun first stepped => ?_⟩
  cases stepped
  refine ⟨⟨rfl, ⟨by decide, by decide, fun _ => trivial⟩, fun named => absurd named (by decide)⟩,
    fun second stepped => ?_⟩
  cases stepped
  refine ⟨fun rqst member => ?_, fun _ _ => trivial⟩
  have only : rqst = ⟨3, 8, 0, 5, 1047552⟩ := List.mem_singleton.mp member
  subst only
  exact stack_usable rfl

/-- The number of responses to each request of a run. -/
def tally (inputs : List Input) : Except PanFault (List Nat) :=
  match recorded smallDevice .empty inputs with
  | .error fault => .error fault
  | .ok (_, book) =>
    .ok ((List.range book.asked.length).map fun number => (book.answersTo number).length)

-- The token of this SyncGet is not the reserved one: it is refused, and read as well.
theorem sync_get_answered_twice :
    ∃ after book, recorded smallDevice .empty
      [.deliver (stackGet 6 3 5) 0 fun _ _ => 0, .read fun _ _ => 0] = .ok (after, book) ∧
      ¬ Paired book after := by
  have twice : tally [.deliver (stackGet 6 3 5) 0 fun _ _ => 0, .read fun _ _ => 0] = .ok [2] := by
    decide
  rw [tally] at twice
  split at twice
  · cases twice
  · rename_i after book ran
    refine ⟨after, book, ran, fun paired => ?_⟩
    rw [Except.ok.injEq] at twice
    have one : book.asked.length = 1 := by simpa using congrArg List.length twice
    rw [one] at twice
    have two : (book.answersTo 0).length = 2 := by simpa using twice
    have found : book.asked[0]? = some book.asked[0] := List.getElem?_eq_getElem (by omega)
    rcases paired.once 0 _ found with ⟨post, only, -⟩ | ⟨nothing, -⟩
    · simp [only] at two
    · simp [nothing] at two

end Examples
end RevCPU.Pan
