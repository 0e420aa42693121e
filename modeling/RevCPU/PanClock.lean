import RevCPU.PanReads
import RevCPU.PanRing
import RevCPU.PanToken
import RevCPU.PanZeroCall
/-!
clockTick of a RevCPU with a PAN network, and when it tells the simulator that it may end. What the cores do
in a tick is an input here, and so are the variables that the functions of the PAN read into.
-/
namespace RevCPU.Pan
open Mem MemRefine RegFile Rotation

structure ClockConfig where
  msgPerCycle : Nat
  rdmaPerCycle : Nat
  enableRDMAMBox : Bool

/-- The CPU with `Enabled` and `PrevAddr`. -/
structure Node where
  cpu : PanCPU
  enabled : List Bool
  prevAddr : Nat

/-- What is new in a tick: whether each core goes on, what the cores leave behind, and the variables. -/
structure TickInput where
  goesOn : Nat → Bool
  mem : RevMem
  procs : List Core
  exec : PanExec
  scanFresh : Nat → Nat → Buffer
  readFresh : Nat → Buffer
  host : Buffer

/-- The loop over the messages of a cycle. -/
def PanCPU.sendMessages (cpu : PanCPU) : Nat → Except PanFault PanCPU
  | 0 => .ok cpu
  | count + 1 => do
    let cpu ← cpu.sendPANMessage
    sendMessages cpu count

namespace Node
variable (config : ClockConfig) (node : Node) (input : TickInput)

def runCores : List Bool := node.enabled.mapIdx fun index on => on && input.goesOn index

def scanMailbox : Except PanFault (PanCPU × Nat) :=
  let cpu := { node.cpu with mem := input.mem, procs := input.procs, pExec := input.exec }
  if config.enableRDMAMBox then cpu.panProcessRDMAMailbox config.rdmaPerCycle input.scanFresh node.prevAddr
  else .ok (cpu, node.prevAddr)

def okToEnd : Bool :=
  !node.enabled.any id && node.cpu.sendMB.isEmpty && node.cpu.trackTags.isEmpty &&
    node.cpu.zeroRqst.isEmpty && node.cpu.revokeHasArrived

/-- Whether the end of the simulation is signalled, and the state after the tick. -/
def clockTick : Except PanFault (Bool × Node) := do
  let (cpu, prevAddr) ← node.scanMailbox config input
  let cpu ← cpu.sendMessages config.msgPerCycle
  let cpu ← cpu.processPANMemRead input.readFresh
  let (cpu, _) ← cpu.processPANZeroAddr input.host
  let after : Node := ⟨cpu, node.runCores input, prevAddr⟩
  .ok (after.okToEnd, after)

end Node

structure Started (node : Node) : Prop where
  sendMB : node.cpu.sendMB = []
  trackTags : node.cpu.trackTags = []
  readQueue : node.cpu.readQueue = []
  zeroRqst : node.cpu.zeroRqst = []
  ready : node.cpu.readyForRevoke = false
  arrived : node.cpu.revokeHasArrived = node.cpu.nic.isHost
  enabled : ∀ on ∈ node.enabled, on = true
  prevAddr : node.prevAddr = rdmaMailbox

/-- Packets arrive between the ticks, in any number and order. -/
inductive Reached (config : ClockConfig) : Node → Prop where
  | start {node : Node} (started : Started node) : Reached config node
  | deliver {node : Node} {after : PanCPU} {event : PanNicEvent} {rand : BitVec 32} {fresh : Nat → Buffer}
      (reached : Reached config node) (handled : node.cpu.handlePANMessage event rand fresh = .ok after) :
      Reached config { node with cpu := after }
  | tick {node after : Node} {input : TickInput} {signal : Bool} (reached : Reached config node)
      (ticked : node.clockTick config input = .ok (signal, after)) : Reached config after

structure Done (node : Node) : Prop where
  cores : ∀ on ∈ node.enabled, on = false
  sendMB : node.cpu.sendMB = []
  trackTags : node.cpu.trackTags = []
  zeroRqst : node.cpu.zeroRqst = []
  readQueue : node.cpu.readQueue = []
  ready : node.cpu.readyForRevoke = false
  arrived : node.cpu.revokeHasArrived = true

/-- Nothing but reads outlives the tick: no core goes on, no tag is outstanding, the packets there are at most
those of one cycle and responses all, the revocation has arrived or waits for one of them, and every put to
the address 0 is placed. -/
structure Finishing (config : ClockConfig) (node : Node) (input : TickInput) : Prop where
  cores : ∀ on ∈ node.runCores input, on = false
  tags : node.cpu.trackTags = []
  arrived : node.cpu.revokeHasArrived = true ∨ node.cpu.readyForRevoke = true
  queues : ∃ scanned prevAddr sent placed last, node.scanMailbox config input = .ok (scanned, prevAddr) ∧
    scanned.sendMB.length ≤ config.msgPerCycle ∧ (∀ post ∈ scanned.sendMB, post.1.opcode.responds = true) ∧
    scanned.sendMessages config.msgPerCycle = .ok sent ∧
    sent.processPANZeroAddr input.host = .ok (placed, last) ∧ placed.zeroRqst = []

/-- Where nothing but reads outlives the tick, one of them is answered in it. -/
def Covered (config : ClockConfig) (node : Node) (input : TickInput) : Prop :=
  Finishing config node input → node.cpu.readQueue ≠ [] → ∃ rqst ∈ node.cpu.readQueue, rqst.cost.toNat ≤ 1

/-- The mailbox is mapped in the memory that the cores leave, and the scan goes on at one of its slots. -/
structure Scannable (node : Node) (input : TickInput) (start : Nat) : Prop where
  board : PanMem input.mem
  named : start < rdmaMaxEntries
  saved : node.prevAddr = slotAddr start

/-- The slots of which the scan of a tick makes events. -/
def Node.posting (config : ClockConfig) (node : Node) (input : TickInput) (start : Nat) : List Nat :=
  let valid := Valid (byteAt input.mem)
  let count := turns valid config.rdmaPerCycle node.cpu.sendMB.length start 0 rdmaMaxEntries
  (walk rdmaMaxEntries start count).filter valid

/-- The buffers that the puts to the address 0 find. -/
def Node.buffers (node : Node) (input : TickInput) : List Nat :=
  targetsFrom (byteAt input.mem) 0 node.cpu.zeroRqst.length rdmaMaxEntries

/-- Something beside the reads outlives the tick that starts here: a core goes on, a tag is outstanding, no
revocation has arrived or waits, there are more packets to send than a tick sends or a request among them, or
a put to the address 0 finds no buffer. -/
inductive Outlives (config : ClockConfig) (node : Node) (input : TickInput) : Prop where
  | core (on : true ∈ node.runCores input)
  | tag (outstanding : node.cpu.trackTags ≠ [])
  | unrevoked (arrived : node.cpu.revokeHasArrived = false) (ready : node.cpu.readyForRevoke = false)
  | packets (many : config.msgPerCycle < node.cpu.sendMB.length)
  | request (packet : PanNicEvent × Int) (queued : packet ∈ node.cpu.sendMB)
    (asks : packet.1.opcode.responds = false)
  | commands (start : Nat) (mapped : Scannable node input start) (enabled : config.enableRDMAMBox = true)
    (room : node.cpu.sendMB.length ≠ 255)
    (many : config.msgPerCycle < node.cpu.sendMB.length + (node.posting config input start).length)
  | command (start : Nat) (mapped : Scannable node input start) (enabled : config.enableRDMAMBox = true)
    (room : node.cpu.sendMB.length ≠ 255) (slot : Nat) (taken : slot ∈ node.posting config input start)
    (asks : ∀ post, Post (byteAt input.mem) slot post → post.1.opcode.responds = false)
  | put (start : Nat) (mapped : Scannable node input start) (board : XferMem input.mem)
    (sizes : ∀ put ∈ node.cpu.zeroRqst.take (node.buffers input).length, put.1.toNat ≤ xferBuf)
    (short : (node.buffers input).length < node.cpu.zeroRqst.length)

/-- Where a tick starts with reads, one of them is answered in it, or something else outlives it. -/
def Attended (config : ClockConfig) (node : Node) (input : TickInput) : Prop :=
  node.cpu.readQueue ≠ [] → (∃ rqst ∈ node.cpu.readQueue, rqst.cost.toNat ≤ 1) ∨ Outlives config node input

section Send
variable {cpu after : PanCPU} {count : Nat}

def tagsOf (packets : List (PanNicEvent × Int)) : List (BitVec 8 × Int) :=
  (packets.filter fun packet => !packet.1.opcode.responds).map fun packet => (packet.1.tag, packet.2)

theorem tagsOf_nil {packets : List (PanNicEvent × Int)} :
    tagsOf packets = [] ↔ ∀ packet ∈ packets, packet.1.opcode.responds = true := by
  rw [tagsOf, List.map_eq_nil_iff, List.filter_eq_nil_iff]
  simp only [Bool.not_eq_true, Bool.not_eq_false']

/-- What the packets of a cycle leave of the queues and of a revocation. -/
structure SentAll (cpu after : PanCPU) (count : Nat) : Prop where
  sendMB : after.sendMB = cpu.sendMB.drop count
  trackTags : after.trackTags = cpu.trackTags ++ tagsOf (cpu.sendMB.take count)
  readQueue : after.readQueue = cpu.readQueue
  ready : after.readyForRevoke = (cpu.readyForRevoke && (cpu.sendMB.isEmpty || count == 0))
  arrived : after.revokeHasArrived =
    (cpu.revokeHasArrived || cpu.readyForRevoke && !(cpu.sendMB.isEmpty || count == 0))

theorem sendPANMessage_all (sent : cpu.sendPANMessage = .ok after) : SentAll cpu after 1 := by
  rw [PanCPU.sendPANMessage] at sent
  cases queued : cpu.sendMB with
  | nil =>
    rw [queued] at sent
    cases sent
    constructor
    · rw [queued]
      rfl
    · rw [queued]
      exact (List.append_nil _).symm
    · rfl
    · rw [queued]
      exact (Bool.and_true _).symm
    · rw [queued]
      exact (Bool.and_false _ ▸ Bool.or_false _).symm
  | cons packet rest =>
    rw [queued] at sent
    have tags : (if packet.1.opcode.responds then cpu.trackTags
        else cpu.trackTags ++ [(packet.1.tag, packet.2)]) = cpu.trackTags ++ tagsOf [packet] := by
      cases responds : packet.1.opcode.responds <;> simp [tagsOf, responds]
    dsimp only [PanCPU.finishRevoke] at sent
    rw [tags] at sent
    cases waits : cpu.readyForRevoke with
    | false =>
      rw [waits] at sent
      cases sent
      constructor
      · rw [queued]
        rfl
      · rw [queued]
        rfl
      · rfl
      · rw [waits]
        rfl
      · rw [waits, Bool.false_and, Bool.or_false]
    | true =>
      rw [waits, if_pos rfl] at sent
      cases wrote : cpu.mem.writeMem 0 completionAddr 8 (bytesOf (1 : BitVec 64)) with
      | error fault =>
        rw [wrote] at sent
        cases sent
      | ok mem =>
        rw [wrote] at sent
        cases sent
        constructor
        · rw [queued]
          rfl
        · rw [queued]
          rfl
        · rfl
        · rw [queued, waits]
          rfl
        · rw [queued, waits]
          exact (Bool.or_true _).symm

theorem SentAll.next {middle : PanCPU} (first : SentAll cpu middle 1) (rest : SentAll middle after count) :
    SentAll cpu after (count + 1) := by
  constructor
  · rw [rest.sendMB, first.sendMB, List.drop_drop, Nat.add_comm]
  · rw [rest.trackTags, first.trackTags, first.sendMB]
    cases cpu.sendMB with
    | nil => simp [tagsOf]
    | cons packet packets => simp [tagsOf, List.filter_cons]; split_ifs <;> simp
  · rw [rest.readQueue, first.readQueue]
  · rw [rest.ready, first.ready, first.sendMB]
    cases cpu.sendMB <;> simp
  · rw [rest.arrived, first.arrived, first.ready, first.sendMB]
    cases cpu.sendMB <;> simp

theorem sendMessages_all (sent : cpu.sendMessages count = .ok after) : SentAll cpu after count := by
  induction count generalizing cpu with
  | zero =>
    cases sent
    exact ⟨rfl, by simp [tagsOf], rfl, by simp, by simp⟩
  | succ count ih =>
    have ⟨middle, first, rest⟩ := bind_inv sent
    exact (sendPANMessage_all first).next (ih rest)

end Send

section Place
variable {cpu after : PanCPU} {queue : List ReadRqst} {host last tmpValid : Buffer} {slot left : Nat}

def PanCPU.withReads (cpu : PanCPU) (queue : List ReadRqst) : PanCPU := { cpu with readQueue := queue }

theorem readBytes_reads {addr : BitVec 64} {len : Nat} {target : Buffer} :
    (cpu.withReads queue).readBytes addr len target =
      (cpu.readBytes addr len target).map fun result => (result.1, result.2.withReads queue) := by
  rw [PanCPU.readBytes, PanCPU.readBytes]
  cases read : cpu.mem.readMemOld addr.toNat len target with
  | error fault =>
    rw [PanCPU.withReads, read]
    rfl
  | ok result =>
    rw [PanCPU.withReads, read]
    rfl

theorem placePut_reads {size : BitVec 32} {data : Buffer} {rest : List (BitVec 32 × Buffer)} :
    (cpu.withReads queue).placePut slot size data rest =
      (cpu.placePut slot size data rest).map fun placed => placed.withReads queue := by
  rw [PanCPU.placePut, PanCPU.placePut]
  cases marked : cpu.mem.writeMem 0 (xferValid slot) 1 fun _ => 2 with
  | error fault =>
    rw [PanCPU.withReads, marked]
    rfl
  | ok first =>
    rw [PanCPU.withReads, marked]
    dsimp only
    cases first.writeMem 0 (xferBuffer slot) size.toNat data <;> rfl

theorem zeroFrom_reads : PanCPU.zeroFrom (cpu.withReads queue) tmpValid slot left =
    (PanCPU.zeroFrom cpu tmpValid slot left).map fun result => (result.1.withReads queue, result.2) := by
  induction left generalizing cpu tmpValid slot with
  | zero => rfl
  | succ left ih =>
    have same : (cpu.withReads queue).zeroRqst = cpu.zeroRqst := rfl
    rw [PanCPU.zeroFrom, PanCPU.zeroFrom, same]
    cases cpu.zeroRqst with
    | nil => rfl
    | cons put rest =>
      dsimp only
      rw [readBytes_reads]
      cases cpu.readBytes (BitVec.ofNat 64 (xferValid slot)) 8 tmpValid with
      | error fault => rfl
      | ok result =>
        rcases result with ⟨loaded, middle⟩
        dsimp only [Except.map]
        split_ifs
        · rw [placePut_reads]
          cases middle.placePut slot put.1 put.2 rest with
          | error fault => rfl
          | ok placed => exact ih
        · exact ih

theorem processPANZeroAddr_reads : (cpu.withReads queue).processPANZeroAddr host =
    (cpu.processPANZeroAddr host).map fun result => (result.1.withReads queue, result.2) := by
  have same : (cpu.withReads queue).zeroRqst = cpu.zeroRqst := rfl
  rw [PanCPU.processPANZeroAddr, PanCPU.processPANZeroAddr, same]
  split_ifs
  · rfl
  · exact zeroFrom_reads

/-- Only the memory and the puts that wait differ. -/
structure Placing (cpu after : PanCPU) : Prop where
  same : after = { cpu with mem := after.mem, zeroRqst := after.zeroRqst }

theorem Placing.trans {middle : PanCPU} (first : Placing cpu middle) (second : Placing middle after) :
    Placing cpu after where
  same := by
    rw [second.same, first.same]

theorem readBytes_placing {addr : BitVec 64} {len : Nat} {target data : Buffer}
    (read : cpu.readBytes addr len target = .ok (data, after)) : Placing cpu after where
  same := by
    rw [readBytes_same read]

theorem placePut_placing {size : BitVec 32} {data : Buffer} {rest : List (BitVec 32 × Buffer)}
    (wrote : cpu.placePut slot size data rest = .ok after) : Placing cpu after := by
  rw [PanCPU.placePut] at wrote
  cases marked : cpu.mem.writeMem 0 (xferValid slot) 1 (fun _ => 2) with
  | error fault =>
    rw [marked] at wrote
    cases wrote
  | ok first =>
    rw [marked] at wrote
    dsimp only at wrote
    cases stored : first.writeMem 0 (xferBuffer slot) size.toNat data with
    | error fault =>
      rw [stored] at wrote
      cases wrote
    | ok second =>
      rw [stored] at wrote
      cases wrote
      exact ⟨rfl⟩

theorem zeroFrom_placing (looped : PanCPU.zeroFrom cpu tmpValid slot left = .ok (after, last)) :
    Placing cpu after := by
  induction left generalizing cpu tmpValid slot with
  | zero =>
    cases looped
    exact ⟨rfl⟩
  | succ left ih =>
    rw [PanCPU.zeroFrom] at looped
    cases queued : cpu.zeroRqst with
    | nil =>
      rw [queued] at looped
      cases looped
      exact ⟨rfl⟩
    | cons put rest =>
      rw [queued] at looped
      dsimp only at looped
      cases read : cpu.readBytes (BitVec.ofNat 64 (xferValid slot)) 8 tmpValid with
      | error fault =>
        rw [read] at looped
        cases looped
      | ok result =>
        rcases result with ⟨loaded, middle⟩
        rw [read] at looped
        dsimp only at looped
        have first := readBytes_placing read
        split_ifs at looped
        · cases wrote : middle.placePut slot put.1 put.2 rest with
          | error fault =>
            rw [wrote] at looped
            cases looped
          | ok placed =>
            rw [wrote] at looped
            exact (first.trans (placePut_placing wrote)).trans (ih looped)
        · exact first.trans (ih looped)

theorem processPANZeroAddr_placing (called : cpu.processPANZeroAddr host = .ok (after, last)) :
    Placing cpu after := by
  rw [PanCPU.processPANZeroAddr] at called
  split_ifs at called
  · cases called
    exact ⟨rfl⟩
  · exact zeroFrom_placing called

end Place

section Reads
variable {cpu after : PanCPU} {fresh : Nat → Buffer} {rqsts : List ReadRqst}

theorem answerReads_idle (later : ∀ rqst ∈ rqsts, rqst.cost ≠ 0) :
    PanCPU.answerReads fresh cpu rqsts = .ok cpu := by
  induction rqsts with
  | nil => rfl
  | cons rqst rest ih =>
    rw [PanCPU.answerReads, if_neg (later rqst List.mem_cons_self)]
    exact ih fun other member => later other (List.mem_cons_of_mem rqst member)

theorem elapse_positive {rqst : ReadRqst} (late : ¬ rqst.cost.toNat ≤ 1) : (PanCPU.elapse rqst).cost ≠ 0 := by
  have same := elapse_cost_zero rqst
  rw [decide_eq_false late, beq_eq_false_iff_ne] at same
  exact same

/-- Where every read has to wait longer, they are counted down and nothing else happens. -/
theorem processPANMemRead_idle (late : ∀ rqst ∈ cpu.readQueue, ¬ rqst.cost.toNat ≤ 1) :
    cpu.processPANMemRead fresh = .ok (cpu.withReads (cpu.readQueue.map PanCPU.elapse)) := by
  have positive : ∀ rqst ∈ cpu.readQueue.map PanCPU.elapse, rqst.cost ≠ 0 := by
    intro rqst member
    rw [List.mem_map] at member
    rcases member with ⟨before, queued, rfl⟩
    exact elapse_positive (late before queued)
  have kept : (cpu.readQueue.map PanCPU.elapse).filter (fun rqst => rqst.cost != 0) =
      cpu.readQueue.map PanCPU.elapse :=
    List.filter_eq_self.mpr fun rqst member => bne_iff_ne.mpr (positive rqst member)
  rw [PanCPU.processPANMemRead, answerReads_idle positive, kept]
  rfl

theorem Read.answer (read : Read cpu after) {rqst : ReadRqst} (queued : rqst ∈ cpu.readQueue)
    (soon : rqst.cost.toNat ≤ 1) : after.sendMB ≠ [] := by
  rcases read.posted with ⟨replies, posted, each⟩
  have answered : PanCPU.elapse rqst ∈ due (cpu.readQueue.map PanCPU.elapse) := by
    rw [due, List.mem_filter, elapse_cost_zero]
    exact ⟨List.mem_map_of_mem queued, decide_eq_true soon⟩
  have some : replies ≠ [] := by
    rintro rfl
    rw [List.forall₂_nil_right_iff.mp each] at answered
    cases answered
  intro empty
  rw [PanCPU.posted, PanCPU.posted, read.net, empty, List.append_nil, List.append_assoc] at posted
  have lengths := congrArg List.length posted
  have replied := List.length_pos_of_ne_nil some
  simp only [List.length_append] at lengths
  omega

end Reads

section Pending
variable {config : ClockConfig} {cpu after : PanCPU} {node : Node}

/-- A revocation waits only behind a packet that is still to be sent. -/
def Awaits (cpu : PanCPU) : Prop := cpu.readyForRevoke = true → cpu.sendMB ≠ []

theorem Delivered.sendMB {event : PanNicEvent} (delivered : Delivered cpu event after) :
    ∃ more, after.sendMB = cpu.sendMB ++ more := by
  rcases delivered.posted with ⟨more, posted⟩
  rw [PanCPU.posted, PanCPU.posted, delivered.net, List.append_assoc] at posted
  exact ⟨more, List.append_cancel_left posted⟩

theorem awaits_more {more : List (PanNicEvent × Int)} (awaits : Awaits cpu)
    (ready : after.readyForRevoke = cpu.readyForRevoke) (pushed : after.sendMB = cpu.sendMB ++ more) :
    Awaits after := by
  intro waits empty
  rw [pushed, List.append_eq_nil_iff] at empty
  exact awaits (ready ▸ waits) empty.1

theorem handle_awaits {event : PanNicEvent} {rand : BitVec 32} {fresh : Nat → Buffer} (awaits : Awaits cpu)
    (handled : cpu.handleNetPANMessage event rand fresh = .ok after) : Awaits after := by
  have delivered := handle_delivered handled
  rcases delivered.sendMB with ⟨more, pushed⟩
  by_cases before : cpu.readyForRevoke = true
  · exact awaits_more awaits ((delivered.ready before).trans before.symm) pushed
  · by_cases atOnce : event.opcode.requests = true ∧ event.opcode.reads = false
    · -- The Revoke that sets the flag is answered as well.
      rcases (handle_answered atOnce.1 atOnce.2 handled).reply with ⟨reply, answered, _⟩
      intro _ empty
      rw [answered] at empty
      exact List.append_ne_nil_of_right_ne_nil _ (List.cons_ne_nil _ _) empty
    · exact awaits_more awaits (handle_calm atOnce handled).ready pushed

theorem SentAll.awaits {count : Nat} (sent : SentAll cpu after count) (awaits : Awaits cpu) :
    Awaits after := by
  intro waits
  rw [sent.ready, Bool.and_eq_true, Bool.or_eq_true] at waits
  rcases waits with ⟨before, empty | none⟩
  · exact absurd (List.isEmpty_iff.mp empty) (awaits before)
  · rw [sent.sendMB, beq_iff_eq.mp none]
    exact awaits before

theorem Read.awaits (read : Read cpu after) (awaits : Awaits cpu) : Awaits after := by
  rcases read.posted with ⟨replies, posted, _⟩
  rw [PanCPU.posted, PanCPU.posted, read.net, List.append_assoc] at posted
  exact awaits_more awaits read.ready (List.append_cancel_left posted)

theorem Placing.awaits (placing : Placing cpu after) (awaits : Awaits cpu) : Awaits after := by
  rw [placing.same]
  exact awaits

end Pending

section Tick
variable {config : ClockConfig} {node after : Node} {input : TickInput} {signal : Bool}

/-- The states between the functions of a tick. -/
structure Between (config : ClockConfig) (node : Node) (input : TickInput) (after : Node)
    (scanned sent read : PanCPU) : Prop where
  scan : node.scanMailbox config input = .ok (scanned, after.prevAddr)
  send : scanned.sendMessages config.msgPerCycle = .ok sent
  answer : sent.processPANMemRead input.readFresh = .ok read
  place : ∃ last, read.processPANZeroAddr input.host = .ok (after.cpu, last)
  enabled : after.enabled = node.runCores input

theorem clockTick_between (ticked : node.clockTick config input = .ok (signal, after)) :
    signal = after.okToEnd ∧ ∃ scanned sent read, Between config node input after scanned sent read := by
  have ⟨⟨scanned, prevAddr⟩, scan, rest⟩ := bind_inv ticked
  have ⟨sent, send, rest⟩ := bind_inv rest
  have ⟨read, answer, rest⟩ := bind_inv rest
  have ⟨⟨placed, last⟩, place, done⟩ := bind_inv rest
  cases done
  exact ⟨rfl, scanned, sent, read, scan, send, answer, ⟨last, place⟩, rfl⟩

theorem scanMailbox_aside {scanned : PanCPU} {prevAddr : Nat}
    (scan : node.scanMailbox config input = .ok (scanned, prevAddr)) :
    Aside { node.cpu with mem := input.mem, procs := input.procs, pExec := input.exec } scanned := by
  rw [Node.scanMailbox] at scan
  dsimp only at scan
  split_ifs at scan
  · exact panProcessRDMAMailbox_aside scan
  · cases scan
    exact .refl _

/-- What the end of a tick looks at and the scan of the mailbox leaves alone. -/
structure Keeps (cpu scanned : PanCPU) : Prop where
  readQueue : scanned.readQueue = cpu.readQueue
  trackTags : scanned.trackTags = cpu.trackTags
  ready : scanned.readyForRevoke = cpu.readyForRevoke
  arrived : scanned.revokeHasArrived = cpu.revokeHasArrived

theorem scanMailbox_keeps {scanned : PanCPU} {prevAddr : Nat}
    (scan : node.scanMailbox config input = .ok (scanned, prevAddr)) : Keeps node.cpu scanned := by
  have same := (scanMailbox_aside scan).same
  constructor <;> rw [same]

theorem Between.awaits {scanned sent read : PanCPU}
    (between : Between config node input after scanned sent read)
    (awaits : Awaits node.cpu) : Awaits after.cpu := by
  rcases (scanMailbox_aside between.scan).posts with ⟨more, pushed⟩
  rcases between.place with ⟨last, place⟩
  have afterScan := awaits_more awaits (scanMailbox_keeps between.scan).ready pushed
  have afterSend := (sendMessages_all between.send).awaits afterScan
  have afterRead := (processPANMemRead_read between.answer).awaits afterSend
  exact (processPANZeroAddr_placing place).awaits afterRead

theorem Reached.awaits (reached : Reached config node) : Awaits node.cpu := by
  induction reached with
  | start started =>
    intro waits
    cases started.ready.symm.trans waits
  | deliver _ handled ih => exact handle_awaits ih (handlePANMessage_net handled)
  | tick _ ticked ih =>
    have ⟨_, _, _, _, between⟩ := clockTick_between ticked
    exact between.awaits ih

theorem okToEnd_iff : node.okToEnd = true ↔ (∀ on ∈ node.enabled, on = false) ∧ node.cpu.sendMB = [] ∧
    node.cpu.trackTags = [] ∧ node.cpu.zeroRqst = [] ∧ node.cpu.revokeHasArrived = true := by
  simp only [Node.okToEnd, Bool.and_eq_true, Bool.not_eq_true', List.isEmpty_iff, List.any_eq_false, id_eq,
    Bool.not_eq_true, and_assoc]

theorem clockTick_of_between {scanned sent read : PanCPU}
    (between : Between config node input after scanned sent read) :
    node.clockTick config input = .ok (after.okToEnd, after) := by
  rcases between.place with ⟨last, place⟩
  rcases after with ⟨placed, enabled, prevAddr⟩
  have enabled : enabled = node.runCores input := between.enabled
  rw [Node.clockTick, between.scan, ok_bind]
  dsimp only
  rw [between.send, ok_bind, between.answer, ok_bind, place, ok_bind, enabled]

/-- A tick in which no read is due only counts them down, beside its other work. -/
theorem Between.late {scanned sent read : PanCPU}
    (between : Between config node input after scanned sent read)
    (late : ∀ rqst ∈ node.cpu.readQueue, ¬ rqst.cost.toNat ≤ 1) :
    ∃ placed last, sent.processPANZeroAddr input.host = .ok (placed, last) ∧
      after.cpu = placed.withReads (node.cpu.readQueue.map PanCPU.elapse) := by
  have queue : sent.readQueue = node.cpu.readQueue :=
    (sendMessages_all between.send).readQueue.trans (scanMailbox_keeps between.scan).readQueue
  have idle : sent.processPANMemRead input.readFresh =
      .ok (sent.withReads (node.cpu.readQueue.map PanCPU.elapse)) := by
    rw [← queue] at late ⊢
    exact processPANMemRead_idle late
  rcases between.place with ⟨last, place⟩
  cases idle.symm.trans between.answer
  rw [processPANZeroAddr_reads] at place
  cases called : sent.processPANZeroAddr input.host with
  | error fault =>
    rw [called] at place
    cases place
  | ok result =>
    rcases result with ⟨placed, final⟩
    rw [called] at place
    have pair := Except.ok.inj place
    exact ⟨placed, final, rfl, (congrArg Prod.fst pair).symm⟩

end Tick

section Ends
variable {config : ClockConfig} {node after : Node} {input : TickInput}

/-- A tick that signals with reads queued that it could not answer had nothing else to do. -/
theorem finishing_of_ends {scanned sent read : PanCPU}
    (between : Between config node input after scanned sent read) (ends : after.okToEnd = true)
    (late : ∀ rqst ∈ node.cpu.readQueue, ¬ rqst.cost.toNat ≤ 1) : Finishing config node input := by
  have ⟨cores, sendMB, trackTags, zeroRqst, arrived⟩ := okToEnd_iff.mp ends
  have keeps := scanMailbox_keeps between.scan
  have all := sendMessages_all between.send
  have ⟨placed, last, called, same⟩ := between.late late
  have placing := (processPANZeroAddr_placing called).same
  rw [same] at sendMB trackTags zeroRqst arrived
  rw [placing] at sendMB trackTags arrived
  have dropped : scanned.sendMB.drop config.msgPerCycle = [] := all.sendMB.symm.trans sendMB
  have few : scanned.sendMB.length ≤ config.msgPerCycle := List.drop_eq_nil_iff.mp dropped
  have tags := all.trackTags.symm.trans trackTags
  rw [List.take_of_length_le few, List.append_eq_nil_iff] at tags
  have came := all.arrived.symm.trans arrived
  rw [Bool.or_eq_true, Bool.and_eq_true] at came
  constructor
  · rw [← between.enabled]
    exact cores
  · exact keeps.trackTags.symm.trans tags.1
  · rcases came with before | ⟨waits, _⟩
    · exact .inl (keeps.arrived.symm.trans before)
    · exact .inr (keeps.ready.symm.trans waits)
  · exact ⟨scanned, after.prevAddr, sent, placed, last, between.scan, few, tagsOf_nil.mp tags.2, between.send,
      called, zeroRqst⟩

theorem done_of_covered (reached : Reached config node) (covered : Covered config node input)
    (ticked : node.clockTick config input = .ok (true, after)) : Done after := by
  have ⟨signal, scanned, sent, read, between⟩ := clockTick_between ticked
  have ⟨cores, sendMB, trackTags, zeroRqst, arrived⟩ := okToEnd_iff.mp signal.symm
  have awaits := between.awaits reached.awaits
  have ready : after.cpu.readyForRevoke = false := by
    cases waits : after.cpu.readyForRevoke with
    | false => rfl
    | true => exact absurd sendMB (awaits waits)
  refine ⟨cores, sendMB, trackTags, zeroRqst, ?_, ready, arrived⟩
  by_cases soon : ∃ rqst ∈ node.cpu.readQueue, rqst.cost.toNat ≤ 1
  · rcases soon with ⟨rqst, queued, soon⟩
    rcases between.place with ⟨last, place⟩
    have queue : sent.readQueue = node.cpu.readQueue :=
      (sendMessages_all between.send).readQueue.trans (scanMailbox_keeps between.scan).readQueue
    have answered := (processPANMemRead_read between.answer).answer (queue ▸ queued) soon
    rw [(processPANZeroAddr_placing place).same] at sendMB
    exact absurd sendMB answered
  · have late : ∀ rqst ∈ node.cpu.readQueue, ¬ rqst.cost.toNat ≤ 1 := by
      intro rqst queued small
      exact soon ⟨rqst, queued, small⟩
    have ⟨placed, last, _, same⟩ := between.late late
    have empty : node.cpu.readQueue = [] := by
      by_contra some
      exact soon (covered (finishing_of_ends between signal.symm late) some)
    rw [same, empty]
    rfl

theorem ends_of_finishing (reached : Reached config node) (finishing : Finishing config node input)
    (late : ∀ rqst ∈ node.cpu.readQueue, ¬ rqst.cost.toNat ≤ 1) :
    ∃ after, node.clockTick config input = .ok (true, after) ∧
      after.cpu.readQueue = node.cpu.readQueue.map PanCPU.elapse := by
  rcases finishing.queues with
    ⟨scanned, prevAddr, sent, placed, last, scan, few, responses, send, place, none⟩
  have keeps := scanMailbox_keeps scan
  have all := sendMessages_all send
  have queue : sent.readQueue = node.cpu.readQueue := all.readQueue.trans keeps.readQueue
  have answer : sent.processPANMemRead input.readFresh =
      .ok (sent.withReads (node.cpu.readQueue.map PanCPU.elapse)) := by
    rw [← queue] at late ⊢
    exact processPANMemRead_idle late
  have called : (sent.withReads (node.cpu.readQueue.map PanCPU.elapse)).processPANZeroAddr input.host =
      .ok (placed.withReads (node.cpu.readQueue.map PanCPU.elapse), last) := by
    rw [processPANZeroAddr_reads, place]
    rfl
  have between : Between config node input
      ⟨placed.withReads (node.cpu.readQueue.map PanCPU.elapse), node.runCores input, prevAddr⟩ scanned sent
      (sent.withReads (node.cpu.readQueue.map PanCPU.elapse)) := ⟨scan, send, answer, ⟨last, called⟩, rfl⟩
  have placing := (processPANZeroAddr_placing place).same
  have sendMB : placed.sendMB = [] := by
    rw [placing]
    exact all.sendMB.trans (List.drop_eq_nil_of_le few)
  have trackTags : placed.trackTags = [] := by
    rw [placing]
    refine all.trackTags.trans ?_
    rw [keeps.trackTags, finishing.tags, List.take_of_length_le few, tagsOf_nil.mpr responses]
    rfl
  have arrived : placed.revokeHasArrived = true := by
    rw [placing]
    refine all.arrived.trans ?_
    rcases finishing.arrived with before | waits
    · rw [keeps.arrived, before, Bool.true_or]
    · -- The response to the Revoke is still there, and is sent in this tick.
      rcases (scanMailbox_aside scan).posts with ⟨more, pushed⟩
      have some := awaits_more reached.awaits keeps.ready pushed (keeps.ready.trans waits)
      have sent := List.length_pos_of_ne_nil some
      have count : (config.msgPerCycle == 0) = false := beq_false_of_ne (by omega)
      have filled : scanned.sendMB.isEmpty = false := List.isEmpty_eq_false_iff.mpr some
      rw [keeps.ready, waits, count, filled]
      exact Bool.or_true _
  have ticked := clockTick_of_between between
  rw [okToEnd_iff.mpr ⟨finishing.cores, sendMB, trackTags, none, arrived⟩] at ticked
  exact ⟨_, ticked, rfl⟩

/-- In every state that is reached, a tick signals with nothing left to do exactly where it is covered. -/
theorem ends_done_iff (reached : Reached config node) (input : TickInput) :
    (∀ after, node.clockTick config input = .ok (true, after) → Done after) ↔ Covered config node input := by
  constructor
  · intro ends finishing some
    by_contra none
    have late : ∀ rqst ∈ node.cpu.readQueue, ¬ rqst.cost.toNat ≤ 1 := by
      intro rqst queued small
      exact none ⟨rqst, queued, small⟩
    have ⟨after, ticked, queue⟩ := ends_of_finishing reached finishing late
    have empty := queue.symm.trans (ends after ticked).readQueue
    exact some (List.map_eq_nil_iff.mp empty)
  · intro covered after ticked
    exact done_of_covered reached covered ticked

end Ends

section Outlive

theorem exists_right {α β : Type} {related : α → β → Prop} {list : List α}
    {other : List β} (each : List.Forall₂ related list other) {entry : α} (member : entry ∈ list) :
    ∃ found ∈ other, related entry found := by
  induction each with
  | nil => cases member
  | cons first _ ih =>
    rcases List.mem_cons.mp member with rfl | behind
    · exact ⟨_, List.mem_cons_self, first⟩
    · obtain ⟨found, inside, held⟩ := ih behind
      exact ⟨found, List.mem_cons_of_mem _ inside, held⟩

variable {config : ClockConfig} {node : Node} {input : TickInput} {cpu after scanned : PanCPU} {start : Nat}

theorem slot_mod (mapped : Scannable node input start) :
    node.prevAddr = slotAddr (start % rdmaMaxEntries) := by
  rw [mapped.saved, Nat.mod_eq_of_lt mapped.named]

/-- The scan of the mailbox is a walk over the slots of which it makes events, and others. -/
theorem scanMailbox_posts {prevAddr : Nat} (mapped : Scannable node input start)
    (enabled : config.enableRDMAMBox = true) (room : node.cpu.sendMB.length ≠ 255)
    (scan : node.scanMailbox config input = .ok (scanned, prevAddr)) :
    ∃ posts, scanned.sendMB = node.cpu.sendMB ++ posts ∧
      List.Forall₂ (Post (byteAt input.mem)) (node.posting config input start) posts := by
  rw [Node.scanMailbox, enabled, slot_mod mapped] at scan
  dsimp only at scan
  rw [if_pos rfl, PanCPU.panProcessRDMAMailbox, if_neg room] at scan
  exact (scanFrom_turns mapped.board (Nat.le_refl _) scan).posts

/-- The bytes outside the words that a scan writes are as the cores have left them. -/
theorem scanMailbox_beneath {prevAddr : Nat} (mapped : Scannable node input start)
    (scan : node.scanMailbox config input = .ok (scanned, prevAddr)) :
    PanMem scanned.mem ∧ layout scanned.mem = layout input.mem ∧ Beneath (byteAt input.mem) scanned := by
  rw [Node.scanMailbox, slot_mod mapped] at scan
  dsimp only at scan
  split_ifs at scan
  · rw [PanCPU.panProcessRDMAMailbox] at scan
    split_ifs at scan
    · cases scan
      exact ⟨mapped.board, rfl, fun _ _ => rfl⟩
    · have pass := scanFrom_turns mapped.board (Nat.le_refl _) scan
      exact ⟨pass.board, pass.layout, pass.quiet⟩
  · cases scan
    exact ⟨mapped.board, rfl, fun _ _ => rfl⟩

structure Sends (cpu after : PanCPU) : Prop where
  board : PanMem after.mem
  layout : layout after.mem = layout cpu.mem
  bytes : ∀ vAddr, vAddr < completionAddr ∨ completionAddr + 8 ≤ vAddr →
    byteAt after.mem vAddr = byteAt cpu.mem vAddr
  zeroRqst : after.zeroRqst = cpu.zeroRqst

theorem sendPANMessage_sends (board : PanMem cpu.mem) (sent : cpu.sendPANMessage = .ok after) :
    Sends cpu after := by
  rw [PanCPU.sendPANMessage] at sent
  cases queued : cpu.sendMB with
  | nil =>
    rw [queued] at sent
    cases sent
    exact ⟨board, rfl, fun _ _ => rfl, rfl⟩
  | cons packet rest =>
    rw [queued] at sent
    dsimp only [PanCPU.finishRevoke] at sent
    cases waits : cpu.readyForRevoke with
    | false =>
      rw [waits] at sent
      cases sent
      exact ⟨board, rfl, fun _ _ => rfl, rfl⟩
    | true =>
      rw [waits, if_pos rfl] at sent
      obtain ⟨mem, marked, beside⟩ := writeWord_completion board 1
      have place : (BitVec.ofNat 64 completionAddr).toNat = completionAddr := by decide
      rw [PanCPU.writeWord, place] at marked
      cases wrote : cpu.mem.writeMem 0 completionAddr 8 (bytesOf (1 : BitVec 64)) with
      | error fault =>
        rw [wrote] at sent
        cases sent
      | ok other =>
        rw [wrote] at sent marked
        cases sent
        have same : other = mem := congrArg PanCPU.mem (Except.ok.inj marked)
        rw [← same] at beside
        have held := board.of_beside beside
        exact ⟨held, beside.layout, beside.bytes, rfl⟩

theorem sendMessages_sends (board : PanMem cpu.mem) {count : Nat}
    (sent : cpu.sendMessages count = .ok after) : Sends cpu after := by
  induction count generalizing cpu with
  | zero =>
    cases sent
    exact ⟨board, rfl, fun _ _ => rfl, rfl⟩
  | succ count ih =>
    have ⟨middle, first, rest⟩ := bind_inv sent
    have one := sendPANMessage_sends board first
    have others := ih one.board rest
    exact ⟨others.board, others.layout.trans one.layout,
      fun vAddr away => (others.bytes vAddr away).trans (one.bytes vAddr away),
      others.zeroRqst.trans one.zeroRqst⟩

theorem quiet_valid (slot : Nat) : Quiet (xferValid slot) := by
  constructor
  · unfold xferValid xferBufAddr completionAddr
    omega
  · intro other named
    unfold rdmaMaxEntries at named
    unfold xferValid xferBufAddr slotAddr rdmaMailbox
    omega

/-- A put that finds no buffer in the memory of the cores finds none behind the scan and the packets. -/
theorem puts_stay {prevAddr : Nat} {sent placed : PanCPU} {last : Buffer}
    (mapped : Scannable node input start) (board : XferMem input.mem)
    (sizes : ∀ put ∈ node.cpu.zeroRqst.take (node.buffers input).length, put.1.toNat ≤ xferBuf)
    (short : (node.buffers input).length < node.cpu.zeroRqst.length)
    (scan : node.scanMailbox config input = .ok (scanned, prevAddr))
    (send : scanned.sendMessages config.msgPerCycle = .ok sent)
    (place : sent.processPANZeroAddr input.host = .ok (placed, last)) : placed.zeroRqst ≠ [] := by
  obtain ⟨held, sameScan, beneath⟩ := scanMailbox_beneath mapped scan
  have sends := sendMessages_sends held send
  have queue : sent.zeroRqst = node.cpu.zeroRqst := by
    rw [sends.zeroRqst, (scanMailbox_aside scan).same]
  have flags : ∀ slot, 0 ≤ slot → byteAt sent.mem (xferValid slot) = byteAt input.mem (xferValid slot) := by
    intro slot _
    have quiet := quiet_valid slot
    rw [sends.bytes _ quiet.1]
    exact beneath _ quiet
  have buffers : taken sent = node.buffers input := by
    rw [taken, queue, Node.buffers]
    exact targetsFrom_congr flags
  have boardSent : XferMem sent.mem :=
    board.of_layout sends.board.coherent (sends.layout.trans sameScan)
  obtain ⟨after, other, called, dropped, _⟩ := process_fits input.host boardSent
    (by rw [buffers, queue]; exact sizes)
  cases called.symm.trans place
  rw [dropped, buffers, queue]
  intro empty
  have all := List.drop_eq_nil_iff.mp empty
  omega

theorem Outlives.not_finishing (outlives : Outlives config node input) : ¬ Finishing config node input := by
  intro finishing
  obtain ⟨scanned, prevAddr, sent, placed, last, scan, few, responses, send, place, none⟩ := finishing.queues
  obtain ⟨more, pushed⟩ := (scanMailbox_aside scan).posts
  have queued : scanned.sendMB = node.cpu.sendMB ++ more := pushed
  cases outlives with
  | core on => exact absurd (finishing.cores true on) (by decide)
  | tag outstanding => exact outstanding finishing.tags
  | unrevoked arrived ready =>
    rcases finishing.arrived with came | waits
    · exact absurd (arrived.symm.trans came) (by decide)
    · exact absurd (ready.symm.trans waits) (by decide)
  | packets many =>
    rw [queued, List.length_append] at few
    omega
  | request packet member asks =>
    have responds := responses packet (queued ▸ List.mem_append_left _ member)
    exact absurd (asks.symm.trans responds) (by decide)
  | commands start mapped enabled room many =>
    obtain ⟨posts, grown, made⟩ := scanMailbox_posts mapped enabled room scan
    rw [grown, List.length_append, ← made.length_eq] at few
    omega
  | command start mapped enabled room slot taken asks =>
    obtain ⟨posts, grown, made⟩ := scanMailbox_posts mapped enabled room scan
    obtain ⟨post, member, converted⟩ := exists_right made taken
    have responds := responses post (grown ▸ List.mem_append_right _ member)
    exact absurd ((asks post converted).symm.trans responds) (by decide)
  | put start mapped board sizes short => exact puts_stay mapped board sizes short scan send place none

/-- A tick from a state that is reached signals the end with nothing left to do, if its reads are attended. -/
theorem ends_done {after : Node} (reached : Reached config node) (attended : Attended config node input)
    (ticked : node.clockTick config input = .ok (true, after)) : Done after := by
  refine (ends_done_iff reached input).mpr ?_ after ticked
  intro finishing some
  rcases attended some with soon | outlives
  · exact soon
  · exact absurd finishing outlives.not_finishing

end Outlive

section Examples

def quietConfig : ClockConfig := ⟨1, 1, false⟩

def slowCore : Core := ⟨{ features := 66, xlen := 64, minCost := 5, maxCost := 10 }, false, false, none, 0⟩

/-- A host with a memory that answers after 5 cycles at the least. -/
def slowHost : Node := ⟨{ hostWith freshMailbox with procs := [slowCore] }, [true], rdmaMailbox⟩

theorem slowHost_started : Started slowHost := by
  constructor <;> first | rfl | exact fun on member => List.mem_singleton.mp member

def slowRead : Node :=
  { slowHost with cpu := { slowHost.cpu with readQueue := [⟨3, 8, 5, 1, 0x3FEFFC00⟩] } }

def lastTick : TickInput where
  goesOn := fun _ => false
  mem := slowHost.cpu.mem
  procs := slowHost.cpu.procs
  exec := slowHost.cpu.pExec
  scanFresh := fun _ _ _ => 0
  readFresh := fun _ _ => 0
  host := fun _ => 0

theorem slowRead_reached : Reached quietConfig slowRead :=
  .deliver (.start slowHost_started) (by rfl : slowHost.cpu.handlePANMessage
    ((PanNicEvent.new.buildSyncGet 0 3 0x3FEFFC00 8).setSrc 1) 0 (fun _ _ => 0) = .ok slowRead.cpu)

-- The get has waited one of its cycles when the end is signalled.
theorem queued_read_unanswered : Reached quietConfig slowRead ∧
    ¬ ∀ after, slowRead.clockTick quietConfig lastTick = .ok (true, after) → Done after := by
  refine ⟨slowRead_reached, fun ends => ?_⟩
  have done := ends
    ⟨{ slowRead.cpu with readQueue := [⟨3, 8, 4, 1, 0x3FEFFC00⟩] }, [false], rdmaMailbox⟩ (by rfl)
  cases done.readQueue

def twoConfig : ClockConfig := ⟨2, 1, false⟩

/-- A tick in which the program has ended, and nothing else is new. -/
def Node.endTick (node : Node) : TickInput :=
  { lastTick with mem := node.cpu.mem, procs := node.cpu.procs, exec := node.cpu.pExec }

def quickCore : Core := ⟨{ features := 66, xlen := 64, minCost := 1, maxCost := 1 }, false, false, none, 0⟩

def freeDevice : Node :=
  ⟨{ hostWith freshPan with nic := ⟨false, false, 0⟩, revokeHasArrived := false, procs := [quickCore] },
    [true], rdmaMailbox⟩

def Node.arrive (node : Node) (event : PanNicEvent) : Node :=
  match node.cpu.handlePANMessage event 0 fun _ _ => 0 with
  | .ok after => { node with cpu := after }
  | .error _ => node

theorem Reached.arrive {config : ClockConfig} {node : Node} (reached : Reached config node)
    (event : PanNicEvent) : Reached config (node.arrive event) := by
  rw [Node.arrive]
  split
  · rename_i after handled
    exact .deliver reached handled
  · exact reached

/-- The same after a Reserve, a get and a Revoke. -/
def pendingDevice : Node :=
  ((freeDevice.arrive ((PanNicEvent.new.buildReserve 7 1).setSrc 1)).arrive
    ((PanNicEvent.new.buildSyncGet 7 2 0x3FEFFC00 8).setSrc 1)).arrive
    ((PanNicEvent.new.buildRevoke 7 3).setSrc 1)

theorem pendingDevice_reached : Reached twoConfig pendingDevice := by
  have started : Started freeDevice := by
    constructor <;> first | rfl | exact fun on member => List.mem_singleton.mp member
  exact (((Reached.start started).arrive _).arrive _).arrive _

-- The read is due and the revocation waits; the tick answers both, and the next one signals.
theorem ends_done_pending : pendingDevice.cpu.readQueue.map ReadRqst.cost = [1] ∧
    pendingDevice.cpu.readyForRevoke = true ∧
    (∀ after, pendingDevice.clockTick twoConfig pendingDevice.endTick = .ok (true, after) → Done after) ∧
    ∃ later after, pendingDevice.clockTick twoConfig pendingDevice.endTick = .ok (false, later) ∧
      later.clockTick twoConfig later.endTick = .ok (true, after) ∧ Done after := by
  have due : pendingDevice.cpu.readQueue.map ReadRqst.cost = [1] := by decide +kernel
  refine ⟨due, by decide +kernel, fun after ticked => ?_, ?_⟩
  · refine ends_done pendingDevice_reached (fun _ => .inl ?_) ticked
    have present : (1 : BitVec 32) ∈ pendingDevice.cpu.readQueue.map ReadRqst.cost := by
      rw [due]
      exact List.mem_singleton_self 1
    obtain ⟨rqst, queued, cost⟩ := List.mem_map.mp present
    exact ⟨rqst, queued, by rw [cost]; decide⟩
  · have seen : (pendingDevice.clockTick twoConfig pendingDevice.endTick).toOption.map
        (fun result => (result.1, result.2.cpu.readQueue,
          (result.2.clockTick twoConfig result.2.endTick).toOption.map Prod.fst)) =
        some (false, [], some true) := by
      decide +kernel
    obtain ⟨⟨going, later⟩, ticked, observed⟩ := ok_of_seen seen
    obtain ⟨rfl, rest⟩ := Prod.mk.inj observed
    obtain ⟨empty, again⟩ := Prod.mk.inj rest
    obtain ⟨⟨signal, after⟩, last, rfl⟩ := ok_of_seen again
    have reached := Reached.tick pendingDevice_reached ticked
    exact ⟨later, after, ticked, last, ends_done reached (fun some => absurd empty some) last⟩

end Examples
end RevCPU.Pan
