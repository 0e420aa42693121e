import RevCPU.PanHarness
import RevCPU.PanSource
/-!
Any number of CPUs on one network, with the packets between them. A CPU takes its ticks, of clockTick or
of the harness, and the network hands over any packet that is on it, in any order. Each outstanding tag
is one request, one read in a queue or one response that is still under way.
-/
namespace RevCPU.Pan
open Mem

/-- A CPU, and the harness where it is enabled. -/
structure Member where
  node : Node
  harness : Option Harness

namespace Member
variable (member : Member)

def clockTick (config : ClockConfig) (input : TickInput) : Except PanFault (Bool × Member) :=
  match member.harness with
  | none =>
    match member.node.clockTick config input with
    | .error fault => .error fault
    | .ok (signal, node) => .ok (signal, ⟨node, none⟩)
  | some harness =>
    match member.node.clockTickPANTest config harness input with
    | .error fault => .error fault
    | .ok (signal, node, harness) => .ok (signal, ⟨node, some harness⟩)

def withCpu (cpu : PanCPU) : Member := { member with node := { member.node with cpu := cpu } }

end Member

/-- The CPUs at their addresses, and the packets on the network. -/
structure System where
  member : Int → Member
  flight : List (PanNicEvent × Int)

inductive Happening where
  | tick (place : Int) (input : TickInput)
  | arrive (index : Nat) (rand : BitVec 32) (fresh : Nat → Buffer)

namespace System
variable (config : Int → ClockConfig) (system : System)

def cpu (place : Int) : PanCPU := (system.member place).node.cpu

def step : Happening → Except PanFault System
  | .tick place input =>
    match (system.member place).clockTick (config place) input with
    | .error fault => .error fault
    | .ok (_, member) =>
      .ok ⟨Function.update system.member place member,
        system.flight ++ member.node.cpu.net.drop (system.cpu place).net.length⟩
  | .arrive index rand fresh =>
    match system.flight[index]? with
    | none => .ok system
    | some (event, dest) =>
      match (system.cpu dest).handlePANMessage event rand fresh with
      | .error fault => .error fault
      | .ok after =>
        .ok ⟨Function.update system.member dest ((system.member dest).withCpu after),
          system.flight.eraseIdx index⟩

def run (system : System) : List Happening → Except PanFault System
  | [] => .ok system
  | happening :: rest =>
    match system.step config happening with
    | .error fault => .error fault
    | .ok after => run after rest

/-- Nothing has been sent, and nothing is asked for. -/
structure Begun : Prop where
  address : ∀ place, (system.cpu place).address = place
  sendMB : ∀ place, (system.cpu place).sendMB = []
  trackTags : ∀ place, (system.cpu place).trackTags = []
  readQueue : ∀ place, (system.cpu place).readQueue = []
  harness : ∀ place harness, (system.member place).harness = some harness → harness.testStage = 0
  flight : system.flight = []

/-- The programs post requests and no responses, and a SyncGet carries the reserved token. -/
def Allowed : Happening → Prop
  | .tick place input => (system.member place).harness = none → ∀ scanned next,
      (system.member place).node.scanMailbox (config place) input = .ok (scanned, next) →
      ∀ post ∈ scanned.sendMB.drop (system.cpu place).sendMB.length, post.1.opcode.responds = false
  | .arrive index _ _ => ∀ event dest, system.flight[index]? = some (event, dest) →
      event.opcode = .SyncGet →
      (system.cpu dest).nic.isHost = true ∨ (system.cpu dest).nic.checkToken event.token = true

/-- Every step of the run is one of those allowed. -/
def Orderly (allowed : System → Happening → Prop) (system : System) : List Happening → Prop
  | [] => True
  | happening :: rest => allowed system happening ∧
      ∀ after, system.step config happening = .ok after → Orderly allowed after rest

end System

section Counts
variable (host dest : Int) (tag : BitVec 8)

/-- The packet asks `dest` for something, with the tag of `host`. -/
def asks (packet : PanNicEvent × Int) : Bool :=
  !packet.1.opcode.responds && packet.1.src == host && packet.1.tag == tag && packet.2 == dest

/-- The packet is the response of `dest` to the tag of `host`. -/
def answers (packet : PanNicEvent × Int) : Bool :=
  packet.1.opcode.responds && packet.1.src == dest && packet.1.tag == tag && packet.2 == host

def waits (rqst : ReadRqst) : Bool := rqst.src == host && rqst.tag == tag

/-- What a CPU at `dest` still owes to `host`, or has not sent yet. -/
def owed (cpu : PanCPU) : Nat :=
  cpu.readQueue.countP (waits host tag) + cpu.sendMB.countP (answers host dest tag)

def System.underWay (system : System) : Nat :=
  system.flight.countP (asks host dest tag) + system.flight.countP (answers host dest tag) +
    owed host dest tag (system.cpu dest)

end Counts

/-- What the tags of the whole system say. -/
structure Accounted (system : System) : Prop where
  tracked : ∀ host dest tag,
    (system.cpu host).trackTags.count (tag, dest) = system.underWay host dest tag
  welcome : ∀ event dest, (event, dest) ∈ system.flight → event.opcode.responds = true →
    ∀ rand fresh, (system.cpu dest).handlePANMessage event rand fresh ≠ .error .fatal
  settled : system.flight = [] →
    (∀ place, (system.cpu place).sendMB = [] ∧ (system.cpu place).readQueue = []) →
    ∀ place, (system.cpu place).trackTags = []

structure Balanced (system : System) : Prop where
  address : ∀ place, (system.cpu place).address = place
  signed : ∀ place, ∀ post ∈ (system.cpu place).sendMB, post.1.src = place
  armed : ∀ place harness, (system.member place).harness = some harness → harness.Armed
  tracked : ∀ host dest tag,
    (system.cpu host).trackTags.count (tag, dest) = system.underWay host dest tag

section Balanced
variable {system after : System} {config : Int → ClockConfig} {happenings : List Happening}

theorem System.Begun.balanced (begun : system.Begun) : Balanced system where
  address := begun.address
  signed := by
    intro place post member
    rw [begun.sendMB] at member
    exact absurd member List.not_mem_nil
  armed := fun place harness has later => absurd (begun.harness place harness has) later
  tracked := by
    intro host dest tag
    rw [System.underWay, owed, begun.trackTags, begun.readQueue, begun.sendMB, begun.flight]
    rfl

theorem Balanced.accounted (balanced : Balanced system) : Accounted system where
  tracked := balanced.tracked
  welcome := by
    intro event dest member responds rand fresh
    apply response_welcome responds
    -- The response itself is one of the packets under way.
    have answering : answers dest event.src event.tag (event, dest) = true := by
      simp [answers, responds]
    have underWay : 0 < system.flight.countP (answers dest event.src event.tag) :=
      List.countP_pos_iff.mpr ⟨_, member, answering⟩
    have tracked := balanced.tracked dest event.src event.tag
    rw [System.underWay] at tracked
    exact List.count_pos_iff.mp (by omega)
  settled := by
    intro empty quiet place
    rw [List.eq_nil_iff_forall_not_mem]
    rintro ⟨tag, dest⟩ member
    have positive := List.count_pos_iff.mpr member
    rw [balanced.tracked, System.underWay, owed, empty, (quiet dest).1, (quiet dest).2] at positive
    exact absurd positive (lt_irrefl 0)

end Balanced

section Ticks

/-- What a tick does to the queues: it adds requests and the responses of the reads it answers, and moves
some of the packets to the network. -/
structure Exchange (cpu after : PanCPU) (posts replies moved : List (PanNicEvent × Int)) : Prop where
  address : after.address = cpu.address
  queue : cpu.sendMB ++ posts ++ replies = moved ++ after.sendMB
  net : after.net = cpu.net ++ moved
  trackTags : after.trackTags = cpu.trackTags ++ tagsOf moved
  requests : ∀ post ∈ posts, post.1.opcode.responds = false ∧ post.1.src = cpu.address
  responses : ∀ post ∈ replies, post.1.opcode.responds = true ∧ post.1.src = cpu.address
  reads : ∀ host tag, cpu.readQueue.countP (waits host tag) =
    after.readQueue.countP (waits host tag) + replies.countP (answers host cpu.address tag)

variable {cpu sent after : PanCPU} {posts replies moved : List (PanNicEvent × Int)}

theorem count_tagsOf (packets : List (PanNicEvent × Int)) (host dest : Int) (tag : BitVec 8)
    (signed : ∀ packet ∈ packets, packet.1.src = host) :
    (tagsOf packets).count (tag, dest) = packets.countP (asks host dest tag) := by
  rw [tagsOf, List.count, List.countP_map, List.countP_filter]
  apply List.countP_congr
  intro packet member
  simp only [asks, signed packet member, Function.comp, beq_self_eq_true, Bool.and_true, Bool.and_eq_true,
    Bool.not_eq_true', beq_iff_eq, Prod.mk.injEq]
  tauto

theorem Exchange.signed (exchange : Exchange cpu after posts replies moved)
    (before : ∀ post ∈ cpu.sendMB, post.1.src = cpu.address) :
    (∀ post ∈ moved, post.1.src = cpu.address) ∧ ∀ post ∈ after.sendMB, post.1.src = cpu.address := by
  have each : ∀ post ∈ moved ++ after.sendMB, post.1.src = cpu.address := by
    intro post member
    rw [← exchange.queue, List.append_assoc] at member
    rcases List.mem_append.mp member with old | new
    · exact before post old
    · rcases List.mem_append.mp new with asked | replied
      · exact (exchange.requests post asked).2
      · exact (exchange.responses post replied).2
  exact List.forall_mem_append.mp each

theorem Exchange.owed (exchange : Exchange cpu after posts replies moved) (host : Int) (tag : BitVec 8) :
    owed host cpu.address tag after + moved.countP (answers host cpu.address tag) =
      owed host cpu.address tag cpu := by
  have queue := congrArg (List.countP (answers host cpu.address tag)) exchange.queue
  have requests : posts.countP (answers host cpu.address tag) = 0 := by
    rw [List.countP_eq_zero]
    intro post member
    simp [answers, (exchange.requests post member).1]
  have reads := exchange.reads host tag
  simp only [List.countP_append] at queue
  simp only [Pan.owed]
  omega

theorem sendMessages_exchange {count : Nat} (ran : sent.sendMessages count = .ok after)
    (address : sent.address = cpu.address) (net : sent.net = cpu.net)
    (tags : sent.trackTags = cpu.trackTags) (queue : sent.readQueue = cpu.readQueue)
    (pushed : sent.sendMB = cpu.sendMB ++ posts)
    (requests : ∀ post ∈ posts, post.1.opcode.responds = false ∧ post.1.src = cpu.address) :
    Exchange cpu after posts [] (sent.sendMB.take count) := by
  have all := sendMessages_all ran
  constructor
  · exact (sendMessages_address ran).trans address
  · rw [List.append_nil, ← pushed, all.sendMB, List.take_append_drop]
  · rw [sendMessages_net ran, net]
  · rw [all.trackTags, tags]
  · exact requests
  · exact fun post member => absurd member List.not_mem_nil
  · intro host tag
    rw [all.readQueue, queue]
    rfl

theorem count_elapse (rqsts : List ReadRqst) (host : Int) (tag : BitVec 8) :
    (rqsts.map PanCPU.elapse).countP (waits host tag) = rqsts.countP (waits host tag) := by
  rw [List.countP_map]
  apply List.countP_congr
  intro rqst _
  have same := elapse_fields rqst
  rw [Function.comp, waits, waits, same.1, same.2]

theorem count_replies {rqsts : List ReadRqst} (each : List.Forall₂ Answers rqsts replies) {source : Int}
    (signed : ∀ post ∈ replies, post.1.src = source) (host : Int) (tag : BitVec 8) :
    replies.countP (answers host source tag) = rqsts.countP (waits host tag) := by
  induction each with
  | nil => rfl
  | cons reply rest ih =>
    obtain ⟨dest, same, responds⟩ := reply
    have head := signed _ (List.mem_cons_self ..)
    rw [List.countP_cons, List.countP_cons, ih fun post member => signed post (List.mem_cons_of_mem _ member)]
    simp [answers, waits, dest, same, responds, head, and_comm]

theorem answered_read {rqsts : List ReadRqst} (each : List.Forall₂ Answers rqsts replies) :
    ∀ post ∈ replies, ∃ rqst ∈ rqsts, Answers rqst post := by
  induction each with
  | nil => exact fun _ member => absurd member List.not_mem_nil
  | cons reply rest ih =>
    refine List.forall_mem_cons.mpr ⟨⟨_, List.mem_cons_self .., reply⟩, fun post member => ?_⟩
    obtain ⟨rqst, queued, answered⟩ := ih post member
    exact ⟨rqst, List.mem_cons_of_mem _ queued, answered⟩

theorem Exchange.read {read : PanCPU} {fresh : Nat → Buffer} (exchange : Exchange cpu sent posts [] moved)
    (ran : sent.processPANMemRead fresh = .ok read) :
    ∃ replies, read.sendMB = sent.sendMB ++ replies ∧ Exchange cpu read posts replies moved := by
  have signed := processPANMemRead_signed ran
  have whole := processPANMemRead_read ran
  obtain ⟨replies, posted, each⟩ := whole.posted
  have pushed : read.sendMB = sent.sendMB ++ replies := by
    rw [PanCPU.posted, PanCPU.posted, whole.net, List.append_assoc] at posted
    exact List.append_cancel_left posted
  have sources : ∀ post ∈ replies, post.1.src = cpu.address := by
    obtain ⟨others, same, sources⟩ := signed.posts
    rw [List.append_cancel_left (pushed.symm.trans same), ← exchange.address]
    exact sources
  refine ⟨replies, pushed, signed.address.trans exchange.address, ?_, whole.net.trans exchange.net,
    signed.trackTags.trans exchange.trackTags, exchange.requests, ?_, ?_⟩
  · rw [pushed, ← List.append_assoc, ← exchange.queue, List.append_nil]
  · intro post member
    obtain ⟨rqst, -, answered⟩ := answered_read each post member
    exact ⟨answered.2.2, sources post member⟩
  · intro host tag
    have before := exchange.reads host tag
    have parted := List.countP_eq_countP_filter_add (sent.readQueue.map PanCPU.elapse) (waits host tag)
      fun rqst => rqst.cost == 0
    rw [count_elapse] at parted
    rw [count_replies each sources, whole.readQueue]
    simp only [List.countP_nil, Nat.add_zero] at before
    rw [before, parted, due, left, Nat.add_comm]
    rfl

theorem Exchange.place {placed : PanCPU} (exchange : Exchange cpu after posts replies moved)
    (placing : Placing after placed) : Exchange cpu placed posts replies moved := by
  have same := placing.same
  constructor
  · rw [same]
    exact exchange.address
  · rw [same]
    exact exchange.queue
  · rw [same]
    exact exchange.net
  · rw [same]
    exact exchange.trackTags
  · exact exchange.requests
  · exact exchange.responses
  · rw [same]
    exact exchange.reads

theorem clockTick_exchange {config : ClockConfig} {node last : Node} {input : TickInput} {signal : Bool}
    (asked : ∀ scanned next, node.scanMailbox config input = .ok (scanned, next) →
      ∀ post ∈ scanned.sendMB.drop node.cpu.sendMB.length, post.1.opcode.responds = false)
    (ticked : node.clockTick config input = .ok (signal, last)) :
    ∃ posts replies moved, Exchange node.cpu last.cpu posts replies moved := by
  obtain ⟨-, scanned, sent, read, between⟩ := clockTick_between ticked
  obtain ⟨host, placed⟩ := between.place
  have signed := scanMailbox_signed between.scan
  obtain ⟨posts, pushed, sources⟩ := signed.posts
  have requests : ∀ post ∈ posts, post.1.opcode.responds = false ∧ post.1.src = node.cpu.address := by
    intro post member
    refine ⟨asked scanned _ between.scan post ?_, sources post member⟩
    rw [pushed, List.drop_left]
    exact member
  have net : scanned.net = node.cpu.net := by
    rw [(scanMailbox_aside between.scan).same]
  have first := sendMessages_exchange between.send signed.address net signed.trackTags
    (scanMailbox_keeps between.scan).readQueue pushed requests
  obtain ⟨replies, -, second⟩ := first.read between.answer
  exact ⟨posts, replies, _, second.place (processPANZeroAddr_placing placed)⟩

/-- A tick of the harness: what ExecPANTest leaves, and what goes to the network. -/
theorem clockTickPANTest_exchange {config : ClockConfig} {node last : Node} {harness next : Harness}
    {input : TickInput} {signal : Bool} (armed : harness.Armed)
    (ticked : node.clockTickPANTest config harness input = .ok (signal, last, next)) :
    ∃ tested posts moved, node.cpu.execPANTest harness = .ok (tested, next) ∧ next.Armed ∧
      tested.sendMB = node.cpu.sendMB ++ posts ∧ Exchange node.cpu last.cpu posts [] moved := by
  obtain ⟨⟨tested, harness⟩, ran, rest⟩ := bind_inv ticked
  obtain ⟨sent, sending, done⟩ := bind_inv rest
  cases done
  rcases execPANTest_tested armed ran with waiting | stage
  · obtain ⟨-, rfl, rfl⟩ := waiting
    exact ⟨_, [], _, ran, armed, (List.append_nil _).symm, sendMessages_exchange sending rfl rfl rfl rfl
      (List.append_nil _).symm fun post member => absurd member List.not_mem_nil⟩
  · obtain ⟨-, posts, stage⟩ := stage
    have same := stage.same
    have pushed : tested.sendMB = node.cpu.sendMB ++ posts := by
      rw [same]
    refine ⟨_, posts, _, ran, fun _ => stage.armed, pushed,
      sendMessages_exchange sending ?_ ?_ ?_ ?_ pushed ?_⟩
    · rw [same]
    · rw [same]
    · rw [same]
    · rw [same]
    · intro post member
      have made := stage.made post member
      refine ⟨?_, made.src⟩
      rw [made.opcode]
      exact stageOpcode_requests _

end Ticks

section Arrivals

/-- What the arrival of a packet does to the tags and to what is owed. -/
structure Received (cpu : PanCPU) (event : PanNicEvent) (after : PanCPU) : Prop where
  address : after.address = cpu.address
  signed : (∀ post ∈ cpu.sendMB, post.1.src = cpu.address) → ∀ post ∈ after.sendMB, post.1.src = cpu.address
  closes : ∀ dest tag, after.trackTags.count (tag, dest) +
    (if answers cpu.address dest tag (event, cpu.address) then 1 else 0) = cpu.trackTags.count (tag, dest)
  owes : ∀ host tag, owed host cpu.address tag after = owed host cpu.address tag cpu +
    if asks host cpu.address tag (event, cpu.address) then 1 else 0

variable {cpu after : PanCPU} {event : PanNicEvent} {rand : BitVec 32} {fresh : Nat → Buffer}

theorem Closed.received (closed : Closed cpu event after) (responds : event.opcode.responds = true) :
    Received cpu event after := by
  have same := closed.same
  constructor
  · rw [same]
  · intro signed
    rw [same]
    exact signed
  · intro dest tag
    have tracked := List.count_pos_iff.mpr closed.tracked
    rw [same]
    dsimp only
    rw [List.count_erase]
    by_cases carried : (event.tag, event.src) = (tag, dest)
    · obtain ⟨rfl, rfl⟩ := Prod.mk.inj carried
      simp [answers, responds]
      omega
    · have other : ¬ answers cpu.address dest tag (event, cpu.address) = true := by
        simp only [answers, Bool.and_eq_true, beq_iff_eq]
        intro named
        exact carried (by rw [named.1.2, named.1.1.2])
      rw [if_neg other]
      simp [carried]
  · intro host tag
    rw [same]
    simp [owed, asks, responds]

theorem Signed.received (signed : Signed cpu after) (request : event.opcode.responds = false)
    (answered : Answered cpu event after) : Received cpu event after := by
  obtain ⟨reply, pushed, tag, responds⟩ := answered.reply
  obtain ⟨posts, same, sources⟩ := signed.posts
  obtain rfl : posts = [(reply, event.src)] := List.append_cancel_left (same.symm.trans pushed)
  have src : reply.src = cpu.address := sources _ (List.mem_singleton_self _)
  refine ⟨signed.address, ?_, ?_, ?_⟩
  · intro before
    rw [pushed]
    exact List.forall_mem_append.mpr ⟨before, sources⟩
  · intro dest other
    rw [signed.trackTags]
    simp [answers, request]
  · intro host other
    have same : answers host cpu.address other (reply, event.src) =
        asks host cpu.address other (event, cpu.address) := by
      simp only [answers, asks, responds, request, src, tag, beq_self_eq_true, Bool.true_and, Bool.not_false,
        Bool.and_true]
      exact Bool.and_comm _ _
    rw [owed, owed, pushed, answered.readQueue, List.countP_append, List.countP_singleton, same]
    omega

theorem read_received (request : event.opcode.responds = false)
    (pushed : cpu.pushRead event rand = .ok after) : Received cpu event after := by
  cases procs : cpu.procs.head? with
  | none =>
    rw [PanCPU.pushRead, procs] at pushed
    cases pushed
  | some core =>
    rw [pushRead_ok procs] at pushed
    cases pushed
    refine ⟨rfl, fun signed => signed, ?_, ?_⟩
    · intro dest tag
      simp [answers, request]
    · intro host tag
      have same : waits host tag ⟨event.tag, event.size, randCost core.feature rand, event.src, event.addr⟩ =
          asks host cpu.address tag (event, cpu.address) := by
        simp [waits, asks, request]
      simp only [owed, List.countP_append, List.countP_singleton, same]
      omega

/-- Whatever packet arrives, but for a SyncGet whose token is not the reserved one. -/
theorem handle_received (careful : event.opcode = .SyncGet →
      cpu.nic.isHost = true ∨ cpu.nic.checkToken event.token = true)
    (handled : cpu.handlePANMessage event rand fresh = .ok after) : Received cpu event after := by
  have net := handlePANMessage_net handled
  cases responds : event.opcode.responds with
  | true => exact (handle_closed responds net).received responds
  | false =>
    have signed := handle_signed responds net
    have get : cpu.panHandleGet event rand = .ok after → event.opcode.reads = true →
        Received cpu event after := by
      intro handled reads
      rw [PanCPU.panHandleGet] at handled
      split_ifs at handled
      · cases handled
        exact signed.received responds (failed_answered .refl)
      · exact read_received responds handled
    cases reads : event.opcode.reads with
    | true =>
      rw [PanCPU.handleNetPANMessage] at net
      cases named : event.opcode <;> simp only [named] at net reads
      case SyncGet =>
        have accepted : ¬ (!cpu.nic.isHost && !cpu.nic.checkToken event.token) = true := by
          rcases careful named with host | accepted
          · simp [host]
          · simp [accepted]
        rw [PanCPU.panHandleSyncGet, if_neg accepted] at net
        exact read_received responds net
      case AsyncGet => exact get net (by rw [named]; rfl)
      case SyncStreamGet => exact get net (by rw [named]; rfl)
      case AsyncStreamGet => exact get net (by rw [named]; rfl)
      all_goals exact absurd reads (by decide)
    | false =>
      have request : event.opcode.requests = true := by
        rw [PanOpcode.requests, responds]
        cases named : event.opcode <;> first | rfl | skip
        simp [PanCPU.handleNetPANMessage, named] at net
      exact signed.received responds (handle_answered request reads net)

end Arrivals

section Runs
variable {config : Int → ClockConfig} {system after : System} {happenings : List Happening}

theorem cpu_update (flight : List (PanNicEvent × Int)) (place other : Int) (member : Member) :
    (⟨Function.update system.member place member, flight⟩ : System).cpu other =
      if other = place then member.node.cpu else system.cpu other := by
  dsimp only [System.cpu]
  rw [Function.update_apply]
  split_ifs <;> rfl

theorem armed_update {place : Int} {member : Member}
    (before : ∀ other harness, (system.member other).harness = some harness → harness.Armed)
    (armed : ∀ harness, member.harness = some harness → harness.Armed) :
    ∀ other harness, (Function.update system.member place member other).harness = some harness →
      harness.Armed := by
  intro other harness has
  rw [Function.update_apply] at has
  split_ifs at has
  · exact armed harness has
  · exact before other harness has

theorem countP_eraseIdx {index : Nat} {packet : PanNicEvent × Int} {flight : List (PanNicEvent × Int)}
    (found : flight[index]? = some packet) (test : PanNicEvent × Int → Bool) :
    flight.countP test = (flight.eraseIdx index).countP test + if test packet then 1 else 0 := by
  obtain ⟨inside, rfl⟩ := List.getElem?_eq_some_iff.mp found
  rw [← (List.getElem_cons_eraseIdx_perm inside).countP_eq test, List.countP_cons]

theorem Balanced.tick (balanced : Balanced system) {place : Int} {member : Member}
    {posts replies moved : List (PanNicEvent × Int)}
    (exchange : Exchange (system.cpu place) member.node.cpu posts replies moved)
    (armed : ∀ harness, member.harness = some harness → harness.Armed) :
    Balanced ⟨Function.update system.member place member,
      system.flight ++ member.node.cpu.net.drop (system.cpu place).net.length⟩ := by
  have here := balanced.address place
  obtain ⟨movedSigned, keptSigned⟩ := exchange.signed fun post member =>
    (balanced.signed place post member).trans here.symm
  have away : ∀ host dest tag, dest ≠ place → moved.countP (answers host dest tag) = 0 := by
    intro host dest tag other
    rw [List.countP_eq_zero]
    intro post member
    simp [answers, (movedSigned post member).trans here, Ne.symm other]
  rw [exchange.net, List.drop_left]
  constructor
  · intro other
    rw [cpu_update]
    split_ifs with same
    · rw [exchange.address, here, same]
    · exact balanced.address other
  · intro other post member
    rw [cpu_update] at member
    split_ifs at member with same
    · rw [keptSigned post member, here, same]
    · exact balanced.signed other post member
  · exact armed_update balanced.armed armed
  · intro host dest tag
    have tags : ((⟨Function.update system.member place member, system.flight ++ moved⟩ : System).cpu
        host).trackTags.count (tag, dest) =
          (system.cpu host).trackTags.count (tag, dest) + moved.countP (asks host dest tag) := by
      rw [cpu_update]
      split_ifs with same
      · rw [exchange.trackTags, List.count_append, same,
          count_tagsOf moved place dest tag fun post member => (movedSigned post member).trans here]
      · have none : moved.countP (asks host dest tag) = 0 := by
          rw [List.countP_eq_zero]
          intro post member
          simp [asks, (movedSigned post member).trans here, Ne.symm same]
        rw [none, Nat.add_zero]
    have owing : owed host dest tag ((⟨Function.update system.member place member,
        system.flight ++ moved⟩ : System).cpu dest) + moved.countP (answers host dest tag) =
          owed host dest tag (system.cpu dest) := by
      rw [cpu_update]
      split_ifs with same
      · have owing := exchange.owed host tag
        rw [here] at owing
        rw [same]
        exact owing
      · rw [away host dest tag same, Nat.add_zero]
    have before := balanced.tracked host dest tag
    rw [tags, before]
    simp only [System.underWay, List.countP_append]
    omega

theorem Balanced.arrive (balanced : Balanced system) {index : Nat} {event : PanNicEvent} {dest : Int}
    (found : system.flight[index]? = some (event, dest)) {member : Member}
    (received : Received (system.cpu dest) event member.node.cpu)
    (armed : ∀ harness, member.harness = some harness → harness.Armed) :
    Balanced ⟨Function.update system.member dest member, system.flight.eraseIdx index⟩ := by
  have here := balanced.address dest
  have closes := received.closes
  have owes := received.owes
  rw [here] at closes owes
  constructor
  · intro other
    rw [cpu_update]
    split_ifs with same
    · rw [received.address, here, same]
    · exact balanced.address other
  · intro other post member
    rw [cpu_update] at member
    split_ifs at member with same
    · rw [received.signed (fun post member => (balanced.signed dest post member).trans here.symm) post member,
        here, same]
    · exact balanced.signed other post member
  · exact armed_update balanced.armed armed
  · intro host other tag
    have before := balanced.tracked host other tag
    have tags : ((⟨Function.update system.member dest member, system.flight.eraseIdx index⟩ : System).cpu
        host).trackTags.count (tag, other) + (if answers host other tag (event, dest) then 1 else 0) =
          (system.cpu host).trackTags.count (tag, other) := by
      by_cases same : host = dest
      · rw [cpu_update, if_pos same, same]
        exact closes other tag
      · have unanswered : ¬ answers host other tag (event, dest) = true := by
          simp only [answers, Bool.and_eq_true, beq_iff_eq]
          exact fun named => same named.2.symm
        rw [cpu_update, if_neg same, if_neg unanswered, Nat.add_zero]
    have owing : owed host other tag ((⟨Function.update system.member dest member,
        system.flight.eraseIdx index⟩ : System).cpu other) = owed host other tag (system.cpu other) +
          if asks host other tag (event, dest) then 1 else 0 := by
      by_cases same : other = dest
      · rw [cpu_update, if_pos same, same]
        exact owes host tag
      · have unasked : ¬ asks host other tag (event, dest) = true := by
          simp only [asks, Bool.and_eq_true, beq_iff_eq]
          exact fun named => same named.2.symm
        rw [cpu_update, if_neg same, if_neg unasked, Nat.add_zero]
    have asked := countP_eraseIdx found (asks host other tag)
    have answered := countP_eraseIdx found (answers host other tag)
    rw [System.underWay] at before ⊢
    dsimp only
    omega

/-- A step is a tick of a CPU with or without the harness, or hands over a packet where there is one. -/
theorem System.step_cases {happening : Happening} (stepped : system.step config happening = .ok after) :
    (∃ place input signal node, happening = .tick place input ∧ (system.member place).harness = none ∧
      (system.member place).node.clockTick (config place) input = .ok (signal, node) ∧
      after = ⟨Function.update system.member place ⟨node, none⟩,
        system.flight ++ node.cpu.net.drop (system.cpu place).net.length⟩) ∨
    (∃ place input signal node harness next, happening = .tick place input ∧
      (system.member place).harness = some harness ∧
      (system.member place).node.clockTickPANTest (config place) harness input = .ok (signal, node, next) ∧
      after = ⟨Function.update system.member place ⟨node, some next⟩,
        system.flight ++ node.cpu.net.drop (system.cpu place).net.length⟩) ∨
    (∃ index rand fresh, happening = .arrive index rand fresh ∧ system.flight[index]? = none ∧
      after = system) ∨
    ∃ index rand fresh event dest cpu, happening = .arrive index rand fresh ∧
      system.flight[index]? = some (event, dest) ∧
      (system.cpu dest).handlePANMessage event rand fresh = .ok cpu ∧
      after = ⟨Function.update system.member dest ((system.member dest).withCpu cpu),
        system.flight.eraseIdx index⟩ := by
  cases happening with
  | tick place input =>
    cases has : (system.member place).harness with
    | none =>
      cases ran : (system.member place).node.clockTick (config place) input with
      | error fault =>
        simp only [System.step, Member.clockTick, has, ran] at stepped
        cases stepped
      | ok result =>
        simp only [System.step, Member.clockTick, has, ran, Except.ok.injEq] at stepped
        exact .inl ⟨place, input, result.1, result.2, rfl, has, ran, stepped.symm⟩
    | some harness =>
      cases ran : (system.member place).node.clockTickPANTest (config place) harness input with
      | error fault =>
        simp only [System.step, Member.clockTick, has, ran] at stepped
        cases stepped
      | ok result =>
        simp only [System.step, Member.clockTick, has, ran, Except.ok.injEq] at stepped
        exact .inr (.inl ⟨place, input, result.1, result.2.1, harness, result.2.2, rfl, has, ran,
          stepped.symm⟩)
  | arrive index rand fresh =>
    cases found : system.flight[index]? with
    | none =>
      simp only [System.step, found, Except.ok.injEq] at stepped
      exact .inr (.inr (.inl ⟨index, rand, fresh, rfl, found, stepped.symm⟩))
    | some packet =>
      cases ran : (system.cpu packet.2).handlePANMessage packet.1 rand fresh with
      | error fault =>
        simp only [System.step, found, ran] at stepped
        cases stepped
      | ok cpu =>
        simp only [System.step, found, ran, Except.ok.injEq] at stepped
        exact .inr (.inr (.inr ⟨index, rand, fresh, packet.1, packet.2, cpu, rfl, found, ran,
          stepped.symm⟩))

theorem step_balanced (balanced : Balanced system) {happening : Happening}
    (allowed : system.Allowed config happening) (stepped : system.step config happening = .ok after) :
    Balanced after := by
  rcases System.step_cases stepped with ⟨place, input, signal, node, rfl, has, ran, rfl⟩ |
    ⟨place, input, signal, node, harness, next, rfl, has, ran, rfl⟩ | ⟨index, rand, fresh, rfl, -, rfl⟩ |
    ⟨index, rand, fresh, event, dest, cpu, rfl, found, ran, rfl⟩
  · obtain ⟨posts, replies, moved, exchange⟩ := clockTick_exchange (allowed has) ran
    exact balanced.tick exchange fun harness other => by cases other
  · obtain ⟨tested, posts, moved, -, armed, -, exchange⟩ :=
      clockTickPANTest_exchange (balanced.armed place harness has) ran
    exact balanced.tick exchange fun harness same => Option.some.inj same ▸ armed
  · exact balanced
  · exact balanced.arrive found (handle_received (allowed event dest found) ran) (balanced.armed dest)

theorem run_balanced (balanced : Balanced system)
    (orderly : system.Orderly config (System.Allowed config) happenings)
    (ran : system.run config happenings = .ok after) : Balanced after := by
  induction happenings generalizing system with
  | nil =>
    cases ran
    exact balanced
  | cons happening rest ih =>
    rw [System.run] at ran
    cases stepped : system.step config happening with
    | error fault =>
      rw [stepped] at ran
      cases ran
    | ok next =>
      rw [stepped] at ran
      exact ih (step_balanced balanced orderly.1 stepped) (orderly.2 next stepped) ran

/-- In every state of every run, the outstanding tags of a CPU are, one for one, the requests, the reads
and the responses still under way; so no response is refused, and a system at rest has no outstanding
tag. -/
theorem tags_accounted (begun : system.Begun)
    (orderly : system.Orderly config (System.Allowed config) happenings)
    (ran : system.run config happenings = .ok after) : Accounted after :=
  (run_balanced begun.balanced orderly ran).accounted

theorem System.Orderly.cons {allowed : System → Happening → Prop} {next : System} {happening : Happening}
    (head : allowed system happening) (stepped : system.step config happening = .ok next)
    (rest : next.Orderly config allowed happenings) :
    system.Orderly config allowed (happening :: happenings) := by
  refine ⟨head, fun after other => ?_⟩
  obtain rfl := Except.ok.inj (stepped.symm.trans other)
  exact rest

end Runs

section Examples

/-- The harness on the host 0, one turn to a stage, and a device at every other address. -/
def bench : System where
  member := fun place =>
    if place = 0 then ⟨⟨hostWith freshMailbox, [true], rdmaMailbox⟩, some ⟨0, 1, 0, 0⟩⟩
    else ⟨⟨{ smallDevice with address := place, nic := ⟨false, false, 0⟩ }, [true], rdmaMailbox⟩, none⟩
  flight := []

theorem bench_begun : bench.Begun := by
  have members : ∀ (fact : Int → Member → Prop), fact 0 (bench.member 0) →
      (∀ place, place ≠ 0 → fact place
        ⟨⟨{ smallDevice with address := place, nic := ⟨false, false, 0⟩ }, [true], rdmaMailbox⟩, none⟩) →
      ∀ place, fact place (bench.member place) := by
    intro fact host device place
    by_cases zero : place = 0
    · rw [zero]
      exact host
    · have named : bench.member place =
          ⟨⟨{ smallDevice with address := place, nic := ⟨false, false, 0⟩ }, [true], rdmaMailbox⟩, none⟩ :=
        if_neg zero
      rw [named]
      exact device place zero
  constructor
  · exact members (fun place member => member.node.cpu.address = place) rfl fun _ _ => rfl
  · exact members (fun _ member => member.node.cpu.sendMB = []) rfl fun _ _ => rfl
  · exact members (fun _ member => member.node.cpu.trackTags = []) rfl fun _ _ => rfl
  · exact members (fun _ member => member.node.cpu.readQueue = []) rfl fun _ _ => rfl
  · refine members (fun _ member => ∀ harness, member.harness = some harness → harness.testStage = 0) ?_ ?_
    · intro harness same
      rw [← Option.some.inj same]
    · exact fun _ _ _ none => absurd none nofun
  · rfl

def benchInput (mem : RevMem) (procs : List Core) : TickInput where
  goesOn := fun _ => true
  mem := mem
  procs := procs
  exec := .new
  scanFresh := fun _ _ _ => 0
  readFresh := fun _ _ => 0
  host := fun _ => 0

/-- The reservation reaches the device, and its response is on the network. -/
def reserving : List Happening :=
  [.tick 0 (benchInput freshMailbox []), .arrive 0 0 fun _ _ => 0,
    .tick 1 (benchInput smallDevice.mem smallDevice.procs)]

theorem tags_accounted_reserving : ∃ after, bench.run (fun _ => quietConfig) reserving = .ok after ∧
    Accounted after ∧ (after.cpu 0).trackTags = [(0, 1)] ∧ after.flight.length = 1 := by
  have orderly : bench.Orderly (fun _ => quietConfig) (System.Allowed fun _ => quietConfig) reserving := by
    refine .cons (fun none => by cases none) rfl (.cons ?_ rfl (.cons ?_ rfl trivial))
    · intro event dest found get
      cases found
      cases get
    · intro _ scanned next scan post member
      cases scan
      cases member
  exact ⟨_, rfl, tags_accounted bench_begun orderly rfl, rfl, rfl⟩

end Examples
end RevCPU.Pan
