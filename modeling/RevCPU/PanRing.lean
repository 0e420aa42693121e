import RevCPU.Lib.Rotation
import RevCPU.PanConvert
/-!
The scan of the mailbox as a walk around its slots. Between two calls anything may happen to the CPU; only the
slot that PrevAddr saves carries over.
-/
namespace RevCPU.Pan
open Mem MemRefine RegFile OldRead Rotation

namespace PanCPU
variable (perCycle : Nat) (fresh : Nat → Nat → Buffer)

/-- The addresses that the loop of the scan reads, one for each turn. -/
def visitsFrom (cpu : PanCPU) (addr sent : Nat) : Nat → List Nat
  | 0 => []
  | left + 1 => addr ::
    match cpu.scanSlot addr (fresh left) with
    | .error _ => []
    | .ok (found, cpu) =>
      let sent := if found then sent + 1 else sent
      if left = 0 ∨ sent = perCycle ∨ cpu.sendMB.length = 255 then []
      else visitsFrom cpu (nextAddr addr) sent left

end PanCPU

structure Scan where
  cpu : PanCPU
  perCycle : Nat
  fresh : Nat → Nat → Buffer

namespace Scan
variable (scan : Scan) (prevAddr : Nat)

def result : Except PanFault (PanCPU × Nat) :=
  scan.cpu.panProcessRDMAMailbox scan.perCycle scan.fresh prevAddr

def visits : List Nat :=
  if scan.cpu.sendMB.length = 255 then []
  else scan.cpu.visitsFrom scan.perCycle scan.fresh prevAddr 0 rdmaMaxEntries

end Scan

/-- The slots that some calls visit, one call after the other. -/
def scanVisits (prevAddr : Nat) : List Scan → List Nat
  | [] => []
  | scan :: rest => scan.visits prevAddr ++
    match scan.result prevAddr with
    | .error _ => []
    | .ok (_, next) => scanVisits next rest

section Pass

/-- The bytes that a scan has no business with: all but the completion word and the status words. -/
def Quiet (vAddr : Nat) : Prop :=
  (vAddr < completionAddr ∨ completionAddr + 8 ≤ vAddr) ∧
    ∀ slot < rdmaMaxEntries, vAddr < slotAddr slot ∨ slotAddr slot + 8 ≤ vAddr

/-- The memory of the CPU is the one given, but for the words that a scan writes. -/
def Beneath (flat : Nat → Byte) (cpu : PanCPU) : Prop :=
  ∀ vAddr, Quiet vAddr → byteAt cpu.mem vAddr = flat vAddr

def Valid (flat : Nat → Byte) (slot : Nat) : Bool := status flat slot == entryValid

def dest (flat : Nat → Byte) (slot : Nat) : Int := ((wordAt flat (slotAddr slot + 8)).setWidth 32).toInt

/-- The event that the command of a slot is converted into, with the destination of the slot. -/
def Post (flat : Nat → Byte) (slot : Nat) (post : PanNicEvent × Int) : Prop :=
  post.2 = dest flat slot ∧ ∃ cpu fresh after, Beneath flat cpu ∧
    cpu.panConvertRDMAtoEvent (pointer flat slot) .new fresh = .ok (post.1, after)

/-- What a walk over some slots does: each valid one is turned into one event and marked. -/
structure Pass (cpu : PanCPU) (slots : List Nat) (after : PanCPU) : Prop where
  board : PanMem after.mem
  layout : layout after.mem = layout cpu.mem
  posts : ∃ posts, after.sendMB = cpu.sendMB ++ posts ∧
    List.Forall₂ (Post (byteAt cpu.mem)) (slots.filter (Valid (byteAt cpu.mem))) posts
  slots : ∀ slot < rdmaMaxEntries, ∀ index < 24, byteAt after.mem (slotAddr slot + index) =
    if slot ∈ slots ∧ Valid (byteAt cpu.mem) slot = true ∧ index < 8 then bytesOf entryInjected index
    else byteAt cpu.mem (slotAddr slot + index)
  quiet : Beneath (byteAt cpu.mem) after

def Stuck (cpu : PanCPU) (slot : Nat) (fault : PanFault) : Prop :=
  Valid (byteAt cpu.mem) slot = true ∧ ∃ state fresh, Beneath (byteAt cpu.mem) state ∧
    state.panConvertRDMAtoEvent (pointer (byteAt cpu.mem) slot) .new fresh = .error fault

variable {cpu middle after : PanCPU} {slot : Nat} {first second : List Nat}

theorem Pass.nil (board : PanMem cpu.mem) : Pass cpu [] cpu where
  board := board
  layout := rfl
  posts := ⟨[], (List.append_nil _).symm, .nil⟩
  slots := by
    intro slot _ index _
    rw [if_neg fun marked => List.not_mem_nil marked.1]
  quiet := fun _ _ => rfl

theorem Pass.word (pass : Pass cpu first after) (named : slot < rdmaMaxEntries) {start : Nat}
    (inside : start + 8 ≤ 24) (away : slot ∉ first ∨ 8 ≤ start) :
    wordAt (byteAt after.mem) (slotAddr slot + start) = wordAt (byteAt cpu.mem) (slotAddr slot + start) := by
  apply word64_congr
  intro index small
  rw [Nat.add_assoc, pass.slots slot named (start + index) (by omega), if_neg]
  rintro ⟨member, _, low⟩
  rcases away with other | behind
  · exact other member
  · omega

theorem Pass.valid (pass : Pass cpu first after) (named : slot < rdmaMaxEntries) (other : slot ∉ first) :
    Valid (byteAt after.mem) slot = Valid (byteAt cpu.mem) slot := by
  have word := pass.word named (Nat.le_of_ble_eq_true rfl : 0 + 8 ≤ 24) (.inl other)
  rw [Valid, Valid, status, status]
  exact congrArg (· == entryValid) word

theorem Pass.beneath (pass : Pass cpu first middle) (beneath : Beneath (byteAt middle.mem) after) :
    Beneath (byteAt cpu.mem) after := fun vAddr quiet => (beneath vAddr quiet).trans (pass.quiet vAddr quiet)

theorem Pass.pointer (pass : Pass cpu first after) (named : slot < rdmaMaxEntries) :
    pointer (byteAt after.mem) slot = pointer (byteAt cpu.mem) slot :=
  pass.word named (by decide) (.inr (by decide))

theorem Pass.post (pass : Pass cpu first middle) (named : slot < rdmaMaxEntries) {post : PanNicEvent × Int}
    (made : Post (byteAt middle.mem) slot post) : Post (byteAt cpu.mem) slot post := by
  rcases made with ⟨sent, state, fresh, last, beneath, converted⟩
  have word := pass.word named (by decide : 8 + 8 ≤ 24) (.inr (Nat.le_refl 8))
  rw [dest, word] at sent
  rw [pass.pointer named] at converted
  exact ⟨sent, state, fresh, last, pass.beneath beneath, converted⟩

theorem Pass.stuck (pass : Pass cpu first middle) (named : slot < rdmaMaxEntries) (other : slot ∉ first)
    {fault : PanFault} (stuck : Stuck middle slot fault) : Stuck cpu slot fault := by
  rcases stuck with ⟨valid, state, fresh, beneath, failed⟩
  rw [pass.valid named other] at valid
  rw [pass.pointer named] at failed
  exact ⟨valid, state, fresh, pass.beneath beneath, failed⟩

theorem Pass.append (pass : Pass cpu first middle) (next : Pass middle second after)
    (named : ∀ slot ∈ second, slot < rdmaMaxEntries) (apart : ∀ slot ∈ second, slot ∉ first) :
    Pass cpu (first ++ second) after where
  board := next.board
  layout := next.layout.trans pass.layout
  posts := by
    rcases pass.posts with ⟨before, sent, made⟩
    rcases next.posts with ⟨behind, sentNext, madeNext⟩
    refine ⟨before ++ behind, ?_, ?_⟩
    · rw [sentNext, sent, List.append_assoc]
    · rw [List.filter_append]
      refine List.rel_append made ?_
      have same : second.filter (Valid (byteAt middle.mem)) = second.filter (Valid (byteAt cpu.mem)) :=
        List.filter_congr fun slot member => pass.valid (named slot member) (apart slot member)
      rw [same] at madeNext
      have inside : ∀ slot ∈ second.filter (Valid (byteAt cpu.mem)), slot < rdmaMaxEntries :=
        fun slot member => named slot (List.mem_of_mem_filter member)
      have both := (List.forall₂_and_left _ _).mpr ⟨inside, madeNext⟩
      exact both.imp fun slot post both => pass.post both.1 both.2
  slots := by
    intro slot inside index bound
    rw [next.slots slot inside index bound, pass.slots slot inside index bound]
    by_cases member : slot ∈ second
    · have other := apart slot member
      rw [pass.valid inside other]
      simp only [List.mem_append, member, or_true, true_and, other, false_and, if_false]
    · simp only [List.mem_append, member, or_false, false_and, if_false]
  quiet := pass.beneath next.quiet

end Pass

section Turn
variable {cpu after : PanCPU} {slot : Nat} {fresh : Nat → Buffer}

theorem convert_beside (board : PanMem cpu.mem) {addr : BitVec 64} {event : PanNicEvent}
    (converted : cpu.panConvertRDMAtoEvent addr .new fresh = .ok (event, after)) : Beside cpu after := by
  have ⟨_, _, _, _, _, read, _, _, switched, _⟩ := panConvert_inv converted
  have first := readWord_beside board read
  exact first.trans (convertOpcode_ok (board.of_beside first) switched).2

theorem slot_toNat (named : slot < rdmaMaxEntries) :
    (BitVec.ofNat 64 (slotAddr slot)).toNat = slotAddr slot := by
  rw [BitVec.toNat_ofNat]
  apply Nat.mod_eq_of_lt
  unfold slotAddr rdmaMailbox
  unfold rdmaMaxEntries at named
  omega

theorem readBytes_slot (board : PanMem cpu.mem) (named : slot < rdmaMaxEntries) :
    ∃ payload mem, cpu.readBytes (BitVec.ofNat 64 (slotAddr slot)) 24 (fun _ => 0) =
        .ok (payload, { cpu with mem := mem }) ∧ Unseen cpu.mem mem ∧
      wordsOf payload 0 = status (byteAt cpu.mem) slot ∧
      wordsOf payload 1 = wordAt (byteAt cpu.mem) (slotAddr slot + 8) ∧
      wordsOf payload 2 = pointer (byteAt cpu.mem) slot := by
  have ⟨payload, read, first, second, third, unseen⟩ := board.toBoard.readSlot named
  refine ⟨payload, _, ?_, unseen, first, second, third⟩
  rw [PanCPU.readBytes, slot_toNat named, read]

theorem writeWord_slot (cpu : PanCPU) (board : PanMem cpu.mem) (named : slot < rdmaMaxEntries)
    (word : BitVec 64) :
    ∃ mem, cpu.writeWord (BitVec.ofNat 64 (slotAddr slot)) word = .ok { cpu with mem := mem } ∧ PanMem mem ∧
      layout mem = layout cpu.mem ∧
      ∀ vAddr, byteAt mem vAddr = flatStore (byteAt cpu.mem) (slotAddr slot) 8 (bytesOf word) vAddr := by
  have ⟨mem, written, coherent, same, stored⟩ :=
    writeMem_valid (board.usable named 8 (by decide)) (bytesOf word)
  refine ⟨mem, ?_, ⟨board.toBoard.of_layout coherent same, ?_⟩, same, stored⟩
  · rw [PanCPU.writeWord, slot_toNat named, written]
  · rw [isValidVirtAddr_layout same]
    exact board.completion

theorem idle_pass {mem : RevMem} (board : PanMem cpu.mem) (unseen : Unseen cpu.mem mem)
    (idle : Valid (byteAt cpu.mem) slot = false) : Pass cpu [slot] { cpu with mem := mem } where
  board := board.of_unseen unseen
  layout := unseen.layout
  posts := by
    refine ⟨[], (List.append_nil _).symm, ?_⟩
    rw [List.filter_cons_of_neg (by rw [idle]; decide)]
    exact .nil
  slots := by
    intro visited _ index _
    rw [if_neg, unseen.view]
    rintro ⟨member, marked, _⟩
    rw [List.mem_singleton.mp member, idle] at marked
    cases marked
  quiet := fun vAddr _ => unseen.view vAddr

theorem sent_pass {mem written : RevMem} {last : PanCPU} {event : PanNicEvent} (unseen : Unseen cpu.mem mem)
    (named : slot < rdmaMaxEntries) (valid : Valid (byteAt cpu.mem) slot = true)
    (converted : PanCPU.panConvertRDMAtoEvent { cpu with mem := mem } (pointer (byteAt cpu.mem) slot)
      .new fresh = .ok (event, last))
    (beside : Beside { cpu with mem := mem } last) (board : PanMem written)
    (same : layout written = layout last.mem)
    (stored : ∀ vAddr, byteAt written vAddr =
      flatStore (byteAt last.mem) (slotAddr slot) 8 (bytesOf entryInjected) vAddr) :
    Pass cpu [slot] { last.push event (dest (byteAt cpu.mem) slot) with mem := written } where
  board := board
  layout := same.trans (beside.layout.trans unseen.layout)
  posts := by
    have still : Beneath (byteAt cpu.mem) { cpu with mem := mem } := fun vAddr _ => unseen.view vAddr
    have queue : last.sendMB = cpu.sendMB := by
      rw [beside.same]
    refine ⟨[(event, dest (byteAt cpu.mem) slot)], ?_, ?_⟩
    · change last.sendMB ++ _ = _
      rw [queue]
    · rw [List.filter_cons_of_pos valid]
      exact .cons ⟨rfl, _, fresh, last, still, converted⟩ .nil
  slots := by
    intro visited inside index bound
    have behind : completionAddr + 8 ≤ slotAddr visited + index := by
      unfold completionAddr slotAddr rdmaMailbox
      omega
    have kept : byteAt last.mem (slotAddr visited + index) = byteAt cpu.mem (slotAddr visited + index) :=
      (beside.bytes _ (.inr behind)).trans (unseen.view _)
    rw [stored, flatStore]
    by_cases hit : visited = slot ∧ index < 8
    · rcases hit with ⟨rfl, low⟩
      rw [if_pos (by omega), if_pos ⟨List.mem_singleton_self _, valid, low⟩, Nat.add_sub_cancel_left]
    · have apart : ¬ (slotAddr slot ≤ slotAddr visited + index ∧
          slotAddr visited + index < slotAddr slot + 8) := by
        unfold slotAddr
        omega
      rw [if_neg apart, if_neg]
      · exact kept
      · rintro ⟨member, _, low⟩
        exact hit ⟨List.mem_singleton.mp member, low⟩
  quiet := by
    intro vAddr quiet
    have outside : ¬ (slotAddr slot ≤ vAddr ∧ vAddr < slotAddr slot + 8) := by
      have away := quiet.2 slot named
      omega
    exact (stored vAddr).trans ((if_neg outside).trans ((beside.bytes vAddr quiet.1).trans
      (unseen.view vAddr)))

theorem scanSlot_ends (board : PanMem cpu.mem) (named : slot < rdmaMaxEntries) (fresh : Nat → Buffer) :
    (∃ after, cpu.scanSlot (slotAddr slot) fresh = .ok (Valid (byteAt cpu.mem) slot, after) ∧
      Pass cpu [slot] after) ∨
    (∃ fault, cpu.scanSlot (slotAddr slot) fresh = .error fault ∧ Stuck cpu slot fault) := by
  have ⟨payload, mem, read, unseen, first, second, third⟩ := readBytes_slot board named
  rw [PanCPU.scanSlot, read, ok_bind]
  dsimp only
  rw [first, second, third]
  cases valid : Valid (byteAt cpu.mem) slot with
  | false =>
    have other : status (byteAt cpu.mem) slot ≠ entryValid := by
      rw [Valid] at valid
      exact beq_eq_false_iff_ne.mp valid
    rw [if_neg other]
    exact .inl ⟨_, rfl, idle_pass board unseen valid⟩
  | true =>
    have marked := valid
    rw [Valid, beq_iff_eq] at marked
    rw [if_pos marked]
    cases converted : PanCPU.panConvertRDMAtoEvent { cpu with mem := mem } (pointer (byteAt cpu.mem) slot)
        .new fresh with
    | error fault =>
      exact .inr ⟨fault, rfl, valid, _, fresh, fun vAddr _ => unseen.view vAddr, converted⟩
    | ok result =>
      rcases result with ⟨event, last⟩
      have beside := convert_beside (board.of_unseen unseen) converted
      have boardLast := (board.of_unseen unseen).of_beside beside
      have ⟨written, wrote, boardAfter, same, stored⟩ :=
        writeWord_slot (last.push event (dest (byteAt cpu.mem) slot)) boardLast named entryInjected
      rw [ok_bind]
      dsimp only
      rw [← dest, wrote, ok_bind]
      exact .inl ⟨_, rfl, sent_pass unseen named valid converted beside boardAfter same stored⟩

end Turn

section Walk
variable {cpu : PanCPU} {prevAddr : Nat}

/-- The walk does its work and saves the slot behind it. -/
def Passes (cpu : PanCPU) (slots : List Nat) (next : Nat) (result : Except PanFault (PanCPU × Nat)) : Prop :=
  ∃ after, result = .ok (after, next) ∧ Pass cpu slots after

/-- The simulation ends at the last slot of the walk, whose command cannot be converted. -/
def Stops (cpu : PanCPU) (slots : List Nat) (result : Except PanFault (PanCPU × Nat)) : Prop :=
  ∃ fault before last middle, slots = before ++ [last] ∧ Pass cpu before middle ∧ Stuck cpu last fault ∧
    result = .error fault

theorem nextAddr_slot (start : Nat) :
    PanCPU.nextAddr (slotAddr (start % rdmaMaxEntries)) = slotAddr ((start + 1) % rdmaMaxEntries) := by
  rw [PanCPU.nextAddr]
  unfold slotAddr rdmaMailbox rdmaMaxEntries
  split_ifs
  · omega
  · omega

theorem slot_lt (start : Nat) : start % rdmaMaxEntries < rdmaMaxEntries := Nat.mod_lt _ (by decide)

theorem scanFrom_walks (board : PanMem cpu.mem) (perCycle : Nat) (fresh : Nat → Nat → Buffer)
    (start sent : Nat) {left : Nat} (round : left ≤ rdmaMaxEntries) : ∃ count ≤ left,
      cpu.visitsFrom perCycle fresh (slotAddr (start % rdmaMaxEntries)) sent left =
        (walk rdmaMaxEntries start count).map slotAddr ∧
      (Passes cpu (walk rdmaMaxEntries start count) (slotAddr ((start + count) % rdmaMaxEntries))
          (PanCPU.scanFrom perCycle fresh cpu (slotAddr (start % rdmaMaxEntries)) sent left) ∨
        Stops cpu (walk rdmaMaxEntries start count)
          (PanCPU.scanFrom perCycle fresh cpu (slotAddr (start % rdmaMaxEntries)) sent left)) := by
  induction left generalizing cpu start sent with
  | zero => exact ⟨0, Nat.le_refl 0, rfl, .inl ⟨cpu, rfl, .nil board⟩⟩
  | succ left ih =>
    have single : walk rdmaMaxEntries start 1 = [start % rdmaMaxEntries] := by
      rw [walk_succ, walk_zero]
    rw [PanCPU.visitsFrom, PanCPU.scanFrom]
    rcases scanSlot_ends board (slot_lt start) (fresh left) with
      ⟨middle, turned, pass⟩ | ⟨fault, failed, stuck⟩
    · rw [turned]
      dsimp only
      rw [nextAddr_slot]
      generalize (if Valid (byteAt cpu.mem) (start % rdmaMaxEntries) = true then sent + 1 else sent) = total
      by_cases stop : left = 0 ∨ total = perCycle ∨ middle.sendMB.length = 255
      · rw [if_pos stop, if_pos stop]
        refine ⟨1, by omega, ?_, .inl ?_⟩
        · rw [single]
          rfl
        · rw [single]
          exact ⟨middle, rfl, pass⟩
      · rw [if_neg stop, if_neg stop]
        have ⟨count, short, visited, ends⟩ := ih pass.board (start + 1) total (by omega)
        have distinct : (walk rdmaMaxEntries start (count + 1)).Nodup := nodup_walk (by omega)
        rw [walk_succ, List.nodup_cons] at distinct
        have named (slot : Nat) (member : slot ∈ walk rdmaMaxEntries (start + 1) count) :
            slot < rdmaMaxEntries := lt_of_mem_walk (by decide) member
        have apart (slot : Nat) (member : slot ∈ walk rdmaMaxEntries (start + 1) count) :
            slot ∉ [start % rdmaMaxEntries] := by
          intro same
          rw [List.mem_singleton.mp same] at member
          exact distinct.1 member
        have place : start + 1 + count = start + (count + 1) := by omega
        refine ⟨count + 1, by omega, ?_, ?_⟩
        · rw [visited, walk_succ, List.map_cons]
        · rw [walk_succ, ← place]
          rcases ends with ⟨after, walked, rest⟩ | ⟨fault, before, last, state, split, rest, stuck, failed⟩
          · exact .inl ⟨after, walked, pass.append rest named apart⟩
          · right
            rw [split] at named apart
            have ahead (slot : Nat) (member : slot ∈ before) : slot ∈ before ++ [last] :=
              List.mem_append_left _ member
            have final : last ∈ before ++ [last] := List.mem_append_right _ (List.mem_singleton_self last)
            refine ⟨fault, start % rdmaMaxEntries :: before, last, state, ?_, ?_, ?_, failed⟩
            · rw [split, List.cons_append]
            · exact pass.append rest (fun slot member => named slot (ahead slot member))
                fun slot member => apart slot (ahead slot member)
            · exact pass.stuck (named last final) (apart last final) stuck
    · rw [failed]
      refine ⟨1, by omega, ?_, .inr ⟨fault, [], start % rdmaMaxEntries, cpu, ?_, .nil board, stuck, rfl⟩⟩
      · rw [single]
        rfl
      · rw [single]
        rfl

/-- How many slots a scan comes to from one on, by which of them hold a command. -/
def turns (valid : Nat → Bool) (perCycle : Nat) (queued start sent : Nat) : Nat → Nat
  | 0 => 0
  | left + 1 =>
    let more := (valid (start % rdmaMaxEntries)).toNat
    if left = 0 ∨ sent + more = perCycle ∨ queued + more = 255 then 1
    else turns valid perCycle (queued + more) (start + 1) (sent + more) left + 1

theorem turns_le {valid : Nat → Bool} {perCycle queued start sent left : Nat} :
    turns valid perCycle queued start sent left ≤ left := by
  induction left generalizing queued start sent with
  | zero => exact Nat.le_refl 0
  | succ left ih =>
    rw [turns]
    split_ifs
    · exact Nat.succ_le_succ (Nat.zero_le left)
    · exact Nat.succ_le_succ ih

theorem turns_congr {valid other : Nat → Bool} {perCycle queued start sent left : Nat}
    (same : ∀ slot ∈ walk rdmaMaxEntries start left, valid slot = other slot) :
    turns valid perCycle queued start sent left = turns other perCycle queued start sent left := by
  induction left generalizing queued start sent with
  | zero => rfl
  | succ left ih =>
    rw [walk_succ, List.forall_mem_cons] at same
    rw [turns, turns, same.1, ih same.2]

theorem Pass.sent (pass : Pass cpu [slot] middle) (sent : Nat) :
    middle.sendMB.length = cpu.sendMB.length + (Valid (byteAt cpu.mem) slot).toNat ∧
      (if Valid (byteAt cpu.mem) slot = true then sent + 1 else sent) =
        sent + (Valid (byteAt cpu.mem) slot).toNat := by
  rcases pass.posts with ⟨posts, pushed, made⟩
  rw [pushed, List.length_append, ← made.length_eq, List.filter_cons]
  cases Valid (byteAt cpu.mem) slot with
  | false => exact ⟨rfl, rfl⟩
  | true => exact ⟨rfl, rfl⟩

theorem scanFrom_turns (board : PanMem cpu.mem) {perCycle : Nat} {fresh : Nat → Nat → Buffer}
    {start sent left next : Nat} {after : PanCPU} (round : left ≤ rdmaMaxEntries)
    (scanned : PanCPU.scanFrom perCycle fresh cpu (slotAddr (start % rdmaMaxEntries)) sent left =
      .ok (after, next)) :
    Pass cpu (walk rdmaMaxEntries start
      (turns (Valid (byteAt cpu.mem)) perCycle cpu.sendMB.length start sent left)) after := by
  induction left generalizing cpu start sent with
  | zero =>
    cases scanned
    exact .nil board
  | succ left ih =>
    rw [PanCPU.scanFrom] at scanned
    rcases scanSlot_ends board (slot_lt start) (fresh left) with
      ⟨middle, turned, pass⟩ | ⟨fault, failed, stuck⟩
    · obtain ⟨queue, total⟩ := pass.sent sent
      rw [turned] at scanned
      dsimp only at scanned
      rw [nextAddr_slot, total, queue] at scanned
      rw [turns]
      split_ifs at scanned ⊢ with stop
      · cases scanned
        rw [walk_succ, walk_zero]
        exact pass
      · have distinct : (walk rdmaMaxEntries start (left + 1)).Nodup := nodup_walk round
        rw [walk_succ, List.nodup_cons] at distinct
        have apart : ∀ slot ∈ walk rdmaMaxEntries (start + 1) left, slot ∉ [start % rdmaMaxEntries] := by
          intro slot member same
          rw [List.mem_singleton.mp same] at member
          exact distinct.1 member
        have named : ∀ slot ∈ walk rdmaMaxEntries (start + 1) left, slot < rdmaMaxEntries :=
          fun slot member => lt_of_mem_walk (by decide) member
        have rest := ih pass.board (Nat.le_of_succ_le round) scanned
        rw [queue, turns_congr fun slot member => pass.valid (named slot member) (apart slot member)] at rest
        rw [walk_succ]
        exact pass.append rest (fun slot member => named slot (walk_mono turns_le slot member))
          fun slot member => apart slot (walk_mono turns_le slot member)
    · rw [failed] at scanned
      cases scanned

/-- The slots that a call visits are those of a walk of at most one round from the saved slot on. -/
structure Around (scan : Scan) (prevAddr start count : Nat) : Prop where
  named : start < rdmaMaxEntries
  saved : prevAddr = slotAddr start
  short : count ≤ rdmaMaxEntries
  visits : scan.visits prevAddr = (walk rdmaMaxEntries start count).map slotAddr
  once : (scan.visits prevAddr).Nodup

/-- A call goes on around the ring from the slot that was saved. It turns each valid slot it visits into an
event, or ends the simulation at the first one whose command cannot be converted. -/
def Scanned (scan : Scan) (prevAddr : Nat) : Prop :=
  ∃ start count, Around scan prevAddr start count ∧
    (Passes scan.cpu (walk rdmaMaxEntries start count) (slotAddr ((start + count) % rdmaMaxEntries))
        (scan.result prevAddr) ∨
      Stops scan.cpu (walk rdmaMaxEntries start count) (scan.result prevAddr))

def EachScanned (prevAddr : Nat) : List Scan → Prop
  | [] => True
  | scan :: rest => Scanned scan prevAddr ∧
    match scan.result prevAddr with
    | .error _ => True
    | .ok (_, next) => EachScanned next rest

theorem scan_walks (scan : Scan) (board : PanMem scan.cpu.mem) {start : Nat}
    (named : start < rdmaMaxEntries) :
    ∃ count, Around scan (slotAddr start) start count ∧
      (Passes scan.cpu (walk rdmaMaxEntries start count) (slotAddr ((start + count) % rdmaMaxEntries))
          (scan.result (slotAddr start)) ∨
        Stops scan.cpu (walk rdmaMaxEntries start count) (scan.result (slotAddr start))) := by
  have inside : start % rdmaMaxEntries = start := Nat.mod_eq_of_lt named
  have apart : Function.Injective slotAddr := by
    intro slot other same
    unfold slotAddr at same
    omega
  by_cases full : scan.cpu.sendMB.length = 255
  · refine ⟨0, ⟨named, rfl, Nat.zero_le _, ?_, ?_⟩, .inl ⟨scan.cpu, ?_, .nil board⟩⟩
    · rw [Scan.visits, if_pos full]
      rfl
    · rw [Scan.visits, if_pos full]
      exact List.nodup_nil
    · rw [Scan.result, PanCPU.panProcessRDMAMailbox, if_pos full, Nat.add_zero, inside]
  · have ⟨count, short, visited, ends⟩ :=
      scanFrom_walks board scan.perCycle scan.fresh start 0 (Nat.le_refl rdmaMaxEntries)
    rw [inside] at visited ends
    refine ⟨count, ⟨named, rfl, short, ?_, ?_⟩, ?_⟩
    · rw [Scan.visits, if_neg full]
      exact visited
    · rw [Scan.visits, if_neg full, visited]
      exact (nodup_walk short).map apart
    · rw [Scan.result, PanCPU.panProcessRDMAMailbox, if_neg full]
      exact ends

theorem run_walks (scans : List Scan) (boards : ∀ scan ∈ scans, PanMem scan.cpu.mem) {start : Nat}
    (named : start < rdmaMaxEntries) : EachScanned (slotAddr start) scans ∧
      ∃ count, scanVisits (slotAddr start) scans = (walk rdmaMaxEntries start count).map slotAddr := by
  induction scans generalizing start with
  | nil => exact ⟨trivial, 0, rfl⟩
  | cons scan rest ih =>
    have ⟨count, around, ends⟩ := scan_walks scan (boards scan List.mem_cons_self) named
    have scanned : Scanned scan (slotAddr start) := ⟨start, count, around, ends⟩
    rw [EachScanned, scanVisits, around.visits]
    rcases ends with ⟨after, walked, _⟩ | ⟨fault, _, _, _, _, _, _, failed⟩
    · rw [walked]
      have ⟨each, further, visited⟩ := ih (fun scan member => boards scan (List.mem_cons_of_mem _ member))
        (slot_lt (start + count))
      refine ⟨⟨scanned, each⟩, count + further, ?_⟩
      dsimp only
      rw [visited, walk_mod, walk_add, List.map_append]
    · rw [failed]
      exact ⟨⟨scanned, trivial⟩, count, List.append_nil _⟩

/-- The scan is a fair ring over any number of calls, whatever happens to the CPU between them. -/
theorem mailbox_ring (scans : List Scan) (boards : ∀ scan ∈ scans, PanMem scan.cpu.mem) :
    EachScanned rdmaMailbox scans ∧
      ∃ count, scanVisits rdmaMailbox scans = (walk rdmaMaxEntries 0 count).map slotAddr ∧
        Fair rdmaMaxEntries (walk rdmaMaxEntries 0 count) := by
  have ⟨each, count, visited⟩ := run_walks scans boards (by decide : 0 < rdmaMaxEntries)
  exact ⟨each, count, visited, fair_walk⟩

end Walk

section Examples

def validPan : RevMem :=
  match freshPan.writeMem 0 rdmaMailbox 8 (bytesOf entryValid) with
  | .ok mem => mem
  | .error _ => freshPan

theorem validPan_mem : PanMem validPan := by
  have ⟨mem, written, coherent, same, _⟩ :=
    writeMem_valid (freshPan_mem.usable (by decide : 0 < rdmaMaxEntries) 8 (by decide)) (bytesOf entryValid)
  have first : slotAddr 0 = rdmaMailbox := rfl
  rw [first] at written
  rw [validPan, written]
  refine ⟨freshPan_mem.toBoard.of_layout coherent same, ?_⟩
  rw [isValidVirtAddr_layout same]
  exact freshPan_mem.completion

def validScan : Scan := ⟨hostWith validPan, 1, fun _ _ _ => 0⟩

-- The command of the slot cannot be read, so no event is made of it.
theorem bad_command_ends_scan : PanMem validPan ∧ Valid (byteAt validPan) 0 = true ∧
    ¬ ∃ start count, Around validScan rdmaMailbox start count ∧
      Passes validScan.cpu (walk rdmaMaxEntries start count) (slotAddr ((start + count) % rdmaMaxEntries))
        (validScan.result rdmaMailbox) := by
  refine ⟨validPan_mem, by rfl, ?_⟩
  rintro ⟨start, count, _, after, returned, _⟩
  have fault : validScan.result rdmaMailbox = .error (.mem (.segFault 0)) := by
    rfl
  cases fault.symm.trans returned

/-- What a program leaves for a command to the CPU 5: its first word on the stack, and a slot for it. -/
def withCommand (mem : RevMem) (slot : Nat) (word : BitVec 64) : RevMem :=
  let words : List (BitVec 64) := [entryValid, 5, 0x3FEFFC00]
  match mem.writeMem 0 0x3FEFFC00 8 (bytesOf word) with
  | .error _ => mem
  | .ok mem =>
    match mem.writeMem 0 (slotAddr slot) 24 fun index => bytesOf (words.getD (index / 8) 0) (index % 8) with
    | .error _ => mem
    | .ok mem => mem

theorem PanMem.written {mem after : RevMem} {addr len : Nat} {data : Buffer} (board : PanMem mem)
    (usable : Usable mem addr len) (wrote : mem.writeMem 0 addr len data = .ok after) : PanMem after := by
  have ⟨_, again, coherent, same, _⟩ := writeMem_valid usable data
  cases again.symm.trans wrote
  refine ⟨board.toBoard.of_layout coherent same, ?_⟩
  rw [isValidVirtAddr_layout same]
  exact board.completion

theorem withCommand_mem {mem : RevMem} (board : PanMem mem) (stack : Usable mem 0x3FEFFC00 8) {slot : Nat}
    (named : slot < rdmaMaxEntries) (word : BitVec 64) : PanMem (withCommand mem slot word) := by
  rw [withCommand]
  split
  · exact board
  · rename_i first wrote
    have marked := board.written stack wrote
    split
    · exact marked
    · rename_i second placed
      exact marked.written (marked.usable named 24 (by decide)) placed

theorem freshPan_stack : Usable freshPan 0x3FEFFC00 8 := by
  refine ⟨freshPan_mem.sized, freshPan_mem.coherent, freshPan_mem.cached, by decide, ?_, ?_⟩
  · exact valid_freshPan ((valid_freshMailbox _).mpr (by decide))
  · intro crossing
    exact absurd crossing (by decide)

def firstScan : Scan := ⟨hostWith (withCommand freshPan 0 0x0001200300000007), 1, fun _ _ _ => 0⟩

/-- The CPU again, with a command in the next slot. -/
def nextScan : Scan := ⟨hostWith (withCommand freshPan 1 0x0000400400000007), 1, fun _ _ _ => 0⟩

/-- What a call has sent, and the slot that it saves. -/
def Scan.sent (scan : Scan) (prevAddr : Nat) : Option (List (PanOpcode × Int) × Nat) :=
  (scan.result prevAddr).toOption.map fun result =>
    (result.1.sendMB.map fun post => (post.1.opcode, post.2), result.2)

-- A Status and a Reserve, each in the call that comes to its slot.
theorem mailbox_ring_two : firstScan.sent rdmaMailbox = some ([(.Status, 5)], slotAddr 1) ∧
    nextScan.sent (slotAddr 1) = some ([(.Reserve, 5)], slotAddr 2) ∧
    EachScanned rdmaMailbox [firstScan, nextScan] := by
  have first : PanMem firstScan.cpu.mem :=
    withCommand_mem freshPan_mem freshPan_stack (by decide : 0 < rdmaMaxEntries) 0x0001200300000007
  have next : PanMem nextScan.cpu.mem :=
    withCommand_mem freshPan_mem freshPan_stack (by decide : 1 < rdmaMaxEntries) 0x0000400400000007
  refine ⟨by decide +kernel, by decide +kernel, (mailbox_ring [firstScan, nextScan] ?_).1⟩
  intro scan member
  rcases List.mem_cons.mp member with same | other
  · rw [same]
    exact first
  · rw [List.mem_singleton.mp other]
    exact next

end Examples
end RevCPU.Pan
