import RevCPU.LoadStore
import RevCPU.OldRead
/-!
PANSignalMsgRecv over the mailbox of a host. The command of a slot is read before the slot is looked at, and
the read is the one that loses bytes behind a page boundary.
-/
namespace RevCPU.Pan
open Mem MemRefine RegFile OldRead

section Slots

def slotAddr (slot : Nat) : Nat := rdmaMailbox + 24 * slot

def wordAt (flat : Nat → Byte) (addr : Nat) : BitVec 64 := word64 fun index => flat (addr + index)

/-- The first and the third word of a slot. -/
def status (flat : Nat → Byte) (slot : Nat) : BitVec 64 := wordAt flat (slotAddr slot)

def pointer (flat : Nat → Byte) (slot : Nat) : BitVec 64 := wordAt flat (slotAddr slot + 16)

structure Board (mem : RevMem) : Prop where
  sized : Sized mem
  coherent : Coherent mem
  cached : mem.tlbSize ≠ 0
  mapped : ∀ slot < rdmaMaxEntries, mem.isValidVirtAddr (slotAddr slot) = true

variable {mem after : RevMem} {slot : Nat}

-- All slots lie in one page.
theorem slot_inside (named : slot < rdmaMaxEntries) : slotAddr slot % pageSize + 24 ≤ pageSize := by
  unfold rdmaMaxEntries at named
  have page : slotAddr slot = 8 + 24 * slot + pageSize * 3072 := by
    simp only [slotAddr, rdmaMailbox, pageSize]
    omega
  rw [page, Nat.add_mul_mod_self_left, Nat.mod_eq_of_lt]
  · unfold pageSize
    omega
  · unfold pageSize
    omega

theorem Board.usable (board : Board mem) (named : slot < rdmaMaxEntries) (len : Nat) (short : len ≤ 24) :
    Usable mem (slotAddr slot) len := by
  have inside := slot_inside named
  refine ⟨board.sized, board.coherent, board.cached, ?_, board.mapped slot named, ?_⟩
  · exact short.trans (by decide)
  · intro crossing
    omega

theorem Board.of_layout (board : Board mem) (coherent : Coherent after) (same : layout after = layout mem) :
    Board after where
  sized := board.sized.of_layout same
  coherent := coherent
  cached := by
    rw [(layout_fields same).2]
    exact board.cached
  mapped := by
    intro slot named
    rw [isValidVirtAddr_layout same]
    exact board.mapped slot named

theorem Board.of_unseen (board : Board mem) (unseen : Unseen mem after) : Board after :=
  board.of_layout unseen.coherent unseen.layout

theorem Board.readSlot (board : Board mem) (named : slot < rdmaMaxEntries) :
    ∃ payload, mem.readMemOld (slotAddr slot) 24 (fun _ => 0) =
        .ok (payload, afterRead mem (slotAddr slot) 24) ∧
      wordsOf payload 0 = status (byteAt mem) slot ∧
      wordsOf payload 1 = wordAt (byteAt mem) (slotAddr slot + 8) ∧
      wordsOf payload 2 = pointer (byteAt mem) slot ∧
      Unseen mem (afterRead mem (slotAddr slot) 24) := by
  have usable := board.usable named 24 (Nat.le_refl 24)
  have ⟨read, unseen⟩ := readMemOld_seen board.sized board.coherent board.cached usable.short
    (usable_readable usable) fun _ => 0
  have inside := slot_inside named
  have whole : loadOld (byteAt mem) (slotAddr slot) 24 (fun _ => 0) =
      flatLoad (byteAt mem) (slotAddr slot) 24 fun _ => 0 := by
    have count : min 24 (pageSize - slotAddr slot % pageSize) = 24 := by omega
    rw [loadOld, count, if_pos rfl]
  have word (index : Nat) (bound : index < 3) :
      wordsOf (flatLoad (byteAt mem) (slotAddr slot) 24 fun _ => 0) index =
        wordAt (byteAt mem) (slotAddr slot + 8 * index) := by
    apply word64_congr
    intro byte small
    rw [flatLoad, if_pos (by omega), Nat.add_assoc]
  rw [whole] at read
  exact ⟨_, read, word 0 (by decide), word 1 (by decide), word 2 (by decide), unseen⟩

end Slots

section Commands
variable (flat : Nat → Byte)

/-- The tag of a command in memory, and the one that ReadU64 takes for it. -/
def commandTag (command : BitVec 64) : BitVec 8 := flat (command.toNat + 4)

def readTag (value : Buffer) (command : BitVec 64) : BitVec 8 := loadOld flat command.toNat 8 value 4

/-- The slots that are searched: the first one that passes the test and those before it. -/
def upTo (test : Nat → Bool) : List Nat → List Nat
  | [] => []
  | slot :: rest => slot :: if test slot then [] else upTo test rest

/-- The commands of the slots can be read, one after the other. -/
def Followed (flat : Nat → Byte) (mem : RevMem) : List Nat → Prop
  | [] => True
  | slot :: rest =>
    Readable (afterRead mem (slotAddr slot) 24) (pointer flat slot).toNat 8 ∧
      Followed flat (afterRead (afterRead mem (slotAddr slot) 24) (pointer flat slot).toNat 8) rest

/-- A slot is injected and its command carries the tag: in memory, and as it is read. -/
def Marked (tag : BitVec 8) (slot : Nat) : Bool :=
  status flat slot == entryInjected && commandTag flat (pointer flat slot) == tag

def ReadMarked (fresh : Nat → Buffer) (tag : BitVec 8) (slot : Nat) : Bool :=
  status flat slot == entryInjected && readTag flat (fresh (254 - slot)) (pointer flat slot) == tag

end Commands

section Walk
variable {mem after : RevMem} {tag : BitVec 8} {sig : BitVec 64} {fresh : Nat → Buffer}

/-- What the signal leaves: the status word of a slot is overwritten. -/
def signalled (flat : Nat → Byte) (sig : BitVec 64) : Option Nat → Nat → Byte
  | none => flat
  | some slot => flatStore flat (slotAddr slot) 8 (bytesOf sig)

theorem readU64_readable (board : Board mem) {command : BitVec 64} (value : Buffer)
    (readable : Readable mem command.toNat 8) :
    ∃ word, PanCPU.readU64 mem command value = .ok (word, afterRead mem command.toNat 8) ∧
      (word >>> 32).setWidth 8 = readTag (byteAt mem) value command ∧
      Unseen mem (afterRead mem command.toNat 8) := by
  have ⟨read, unseen⟩ :=
    readMemOld_seen board.sized board.coherent board.cached (by decide) readable value
  rw [PanCPU.readU64, read]
  refine ⟨_, rfl, ?_, unseen⟩
  exact word64_byte _ 4 (by decide)

theorem readU64_unreadable {command : BitVec 64} (value : Buffer)
    (unreadable : ¬ Readable mem command.toNat 8) :
    ∃ fault, PanCPU.readU64 mem command value = .error fault := by
  have ⟨fault, read⟩ := readMemOld_unreadable unreadable value
  rw [PanCPU.readU64, read]
  exact ⟨fault, rfl⟩

/-- How the walk over some slots ends. -/
def Ends (tag : BitVec 8) (sig : BitVec 64) (fresh : Nat → Buffer) (mem : RevMem) (slots : List Nat)
    (result : Except MemFault RevMem) : Prop :=
  let test := ReadMarked (byteAt mem) fresh tag
  (Followed (byteAt mem) mem (upTo test slots) → ∃ after, result = .ok after ∧
    layout after = layout mem ∧
    ∀ vAddr, byteAt after vAddr = signalled (byteAt mem) sig (slots.find? test) vAddr) ∧
  (¬ Followed (byteAt mem) mem (upTo test slots) → ∃ fault, result = .error fault)

theorem signalFrom_ends (board : Board mem) {slot left : Nat} (rest : slot + left = rdmaMaxEntries) :
    Ends tag sig fresh mem (List.range' slot left)
      (PanCPU.signalFrom mem tag sig fresh (slotAddr slot) left) := by
  induction left generalizing mem slot with
  | zero => exact ⟨fun _ => ⟨mem, rfl, rfl, fun _ => rfl⟩, fun never => absurd trivial never⟩
  | succ left ih =>
    have named : slot < rdmaMaxEntries := by omega
    have number : left = 254 - slot := by
      unfold rdmaMaxEntries at rest
      omega
    have ⟨payload, read, statusWord, _, pointerWord, unseen⟩ := board.readSlot named
    have boardSlot := board.of_unseen unseen
    rw [Ends, List.range'_succ, upTo, Followed, PanCPU.signalFrom, read]
    dsimp only
    rw [pointerWord, statusWord]
    by_cases readable :
        Readable (afterRead mem (slotAddr slot) 24) (pointer (byteAt mem) slot).toNat 8
    · have ⟨word, readWord, tagged, unseenWord⟩ := readU64_readable boardSlot (fresh left) readable
      have boardWord := boardSlot.of_unseen unseenWord
      have seen := funext (unseen.trans unseenWord).view
      have same := (unseen.trans unseenWord).layout
      have test : ReadMarked (byteAt mem) fresh tag slot = true ↔
          (word >>> 32).setWidth 8 = tag ∧ status (byteAt mem) slot = entryInjected := by
        rw [tagged, funext unseen.view, number, ReadMarked, Bool.and_eq_true, beq_iff_eq, beq_iff_eq,
          and_comm]
      rw [readWord]
      dsimp only
      by_cases marked : ReadMarked (byteAt mem) fresh tag slot = true
      · have ⟨after, written, _, kept, stored⟩ :=
          writeMem_valid (boardWord.usable named 8 (by decide)) (bytesOf sig)
        rw [if_pos (test.mp marked), if_pos marked, List.find?_cons_of_pos marked]
        constructor
        · intro _
          refine ⟨after, written, kept.trans same, ?_⟩
          intro vAddr
          rw [stored, seen]
          rfl
        · exact fun never => absurd ⟨readable, trivial⟩ never
      · have further : slot + 1 + left = rdmaMaxEntries := by omega
        have ends := ih boardWord further
        have addr : slotAddr slot + 24 = slotAddr (slot + 1) := by
          rw [slotAddr, slotAddr]
          omega
        rw [Ends, seen] at ends
        rw [if_neg (marked ∘ test.mpr), if_neg marked, List.find?_cons_of_neg marked, addr]
        constructor
        · rintro ⟨_, followed⟩
          have ⟨after, walked, kept, stored⟩ := ends.1 followed
          exact ⟨after, walked, kept.trans same, stored⟩
        · exact fun never => ends.2 fun followed => never ⟨readable, followed⟩
    · have ⟨fault, readWord⟩ := readU64_unreadable (fresh left) readable
      rw [readWord]
      exact ⟨fun followed => absurd followed.1 readable, fun _ => ⟨fault, rfl⟩⟩

end Walk

section Signal
variable {flat : Nat → Byte} {sig : BitVec 64}

theorem status_signalled (found : Option Nat) (slot : Nat) :
    status (signalled flat sig found) slot = if found = some slot then sig else status flat slot := by
  cases found with
  | none => rfl
  | some other =>
    by_cases same : other = slot
    · rw [if_pos (congrArg some same), same, status, wordAt, signalled]
      have stored : word64 (fun index => flatStore flat (slotAddr slot) 8 (bytesOf sig)
          (slotAddr slot + index)) = word64 (bytesOf sig) := by
        apply word64_congr
        intro index inside
        rw [flatStore, if_pos (by omega), Nat.add_sub_cancel_left]
      rw [stored, LoadStore.word64_bytesOf, BitVec.setWidth_eq]
    · rw [if_neg fun equal => same (Option.some.inj equal), status, status, wordAt, wordAt, signalled]
      apply word64_congr
      intro index inside
      have apart : ¬ (slotAddr other ≤ slotAddr slot + index ∧
          slotAddr slot + index < slotAddr other + 8) := by
        rw [slotAddr, slotAddr]
        omega
      rw [flatStore, if_neg apart]

theorem signalled_injected {found : Option Nat}
    (injected : ∀ slot, found = some slot → status flat slot = entryInjected) :
    signalled flat entryInjected found = flat := by
  cases found with
  | none => rfl
  | some slot =>
    funext vAddr
    rw [signalled, flatStore]
    by_cases inside : slotAddr slot ≤ vAddr ∧ vAddr < slotAddr slot + 8
    · rw [if_pos inside, ← injected slot rfl, status, wordAt, bytesOf_word64 _ _ (by omega)]
      congr 1
      omega
    · rw [if_neg inside]

theorem found_injected {test : Nat → Bool} {slots : List Nat} {slot : Nat}
    (asks : ∃ carries : Nat → Bool, test = fun slot => status flat slot == entryInjected && carries slot)
    (found : slots.find? test = some slot) : status flat slot = entryInjected := by
  rcases asks with ⟨carries, rfl⟩
  have passes := List.find?_some found
  rw [Bool.and_eq_true, beq_iff_eq] at passes
  exact passes.1

variable {cpu : PanCPU}

/-- The status word of the first injected slot whose command carries the tag is overwritten, and no other
byte changes. -/
def Signals (cpu : PanCPU) (tag : BitVec 8) (sig : BitVec 64) (fresh : Nat → Buffer) : Prop :=
  ∃ mem, cpu.panSignalMsgRecv tag sig fresh = .ok { cpu with mem := mem } ∧
    layout mem = layout cpu.mem ∧
    ∀ vAddr, byteAt mem vAddr = signalled (byteAt cpu.mem) sig
      ((List.range rdmaMaxEntries).find? (Marked (byteAt cpu.mem) tag)) vAddr

/-- A completion marks its own entry where the commands of all slots up to that one can be read, and the
first slot found by the tags that are read is the first one by the tags in memory. -/
theorem signal_exact_iff (board : Board cpu.mem) (tag : BitVec 8) (sig : BitVec 64)
    (fresh : Nat → Buffer) : Signals cpu tag sig fresh ↔
      Followed (byteAt cpu.mem) cpu.mem
        (upTo (ReadMarked (byteAt cpu.mem) fresh tag) (List.range rdmaMaxEntries)) ∧
      ((List.range rdmaMaxEntries).find? (ReadMarked (byteAt cpu.mem) fresh tag) =
          (List.range rdmaMaxEntries).find? (Marked (byteAt cpu.mem) tag) ∨ sig = entryInjected) := by
  have ends : Ends tag sig fresh cpu.mem (List.range' 0 rdmaMaxEntries)
      (PanCPU.signalFrom cpu.mem tag sig fresh (slotAddr 0) rdmaMaxEntries) :=
    signalFrom_ends board (Nat.zero_add _)
  rw [← List.range_eq_range'] at ends
  have first : slotAddr 0 = rdmaMailbox := rfl
  rw [first] at ends
  have asks : ∃ carries : Nat → Bool, ReadMarked (byteAt cpu.mem) fresh tag =
      fun slot => status (byteAt cpu.mem) slot == entryInjected && carries slot := ⟨_, rfl⟩
  have asksMemory : ∃ carries : Nat → Bool, Marked (byteAt cpu.mem) tag =
      fun slot => status (byteAt cpu.mem) slot == entryInjected && carries slot := ⟨_, rfl⟩
  rw [Signals, PanCPU.panSignalMsgRecv]
  constructor
  · rintro ⟨mem, returned, _, marks⟩
    by_cases followed : Followed (byteAt cpu.mem) cpu.mem
        (upTo (ReadMarked (byteAt cpu.mem) fresh tag) (List.range rdmaMaxEntries))
    · refine ⟨followed, ?_⟩
      have ⟨after, walked, _, stored⟩ := ends.1 followed
      rw [walked] at returned
      dsimp only at returned
      have same : after = mem := congrArg PanCPU.mem (Except.ok.inj returned)
      rw [same] at stored
      have equal := (funext stored).symm.trans (funext marks)
      by_cases agree : (List.range rdmaMaxEntries).find? (ReadMarked (byteAt cpu.mem) fresh tag) =
          (List.range rdmaMaxEntries).find? (Marked (byteAt cpu.mem) tag)
      · exact .inl agree
      · right
        cases read : (List.range rdmaMaxEntries).find? (ReadMarked (byteAt cpu.mem) fresh tag) with
        | some slot =>
          have word := congrArg (status · slot) equal
          rw [read] at agree
          rw [status_signalled, status_signalled, if_pos read, if_neg (Ne.symm agree)] at word
          exact word.trans (found_injected asks read)
        | none =>
          cases held : (List.range rdmaMaxEntries).find? (Marked (byteAt cpu.mem) tag) with
          | none => exact absurd (read.trans held.symm) agree
          | some slot =>
            have word := congrArg (status · slot) equal
            rw [status_signalled, status_signalled, if_pos held, if_neg (by simp [read])] at word
            exact word.symm.trans (found_injected asksMemory held)
    · have ⟨fault, faulted⟩ := ends.2 followed
      rw [faulted] at returned
      cases returned
  · rintro ⟨followed, same⟩
    have ⟨after, walked, kept, stored⟩ := ends.1 followed
    rw [walked]
    refine ⟨after, rfl, kept, ?_⟩
    intro vAddr
    rw [stored]
    rcases same with agree | unseen
    · rw [agree]
    · rw [unseen, signalled_injected fun slot found => found_injected asks found,
        signalled_injected fun slot found => found_injected asksMemory found]

end Signal

section Examples

/-- A memory of 1 GiB with the mailbox, which nothing has used. -/
def freshMailbox : RevMem := (RevMem.new 0x40000000 16 1 0).addMemSegAt rdmaMailbox (24 * rdmaMaxEntries)

theorem valid_freshMailbox (vAddr : Nat) : freshMailbox.isValidVirtAddr vAddr = true ↔
    (rdmaMailbox ≤ vAddr ∧ vAddr < rdmaMailbox + 24 * rdmaMaxEntries) ∨
      (0x3FEFFC00 ≤ vAddr ∧ vAddr < 0x40000000) := by
  have bottom : (freshMailbox.stacktop + 2 ^ 64 - stackSize) % 2 ^ 64 = 0x3FEFFC00 := by decide
  have top : (MemSegment.make rdmaMailbox (24 * rdmaMaxEntries)).topAddr =
      rdmaMailbox + 24 * rdmaMaxEntries := by decide
  have held : freshMailbox.memSegs.any (fun seg => seg.contains vAddr) = true ↔
      rdmaMailbox ≤ vAddr ∧ vAddr < rdmaMailbox + 24 * rdmaMaxEntries := by
    rw [← top]
    simp [freshMailbox, RevMem.addMemSegAt, RevMem.new, MemSegment.contains, MemSegment.make]
  have size : freshMailbox.memSize = 0x40000000 := rfl
  have start : freshMailbox.heapstart = 1 := rfl
  have finish : freshMailbox.heapend = 0 := rfl
  rw [RevMem.isValidVirtAddr, bottom, size, start, finish]
  by_cases inside : freshMailbox.memSegs.any (fun seg => seg.contains vAddr) = true
  · rw [if_pos inside]
    exact ⟨fun _ => .inl (held.mp inside), fun _ => rfl⟩
  · rw [if_neg inside]
    have outside := fun within => inside (held.mpr within)
    split_ifs with stack
    · rw [decide_eq_true_eq]
      constructor
      · exact fun below => .inr ⟨stack, below⟩
      · rintro (within | ⟨_, below⟩)
        · exact absurd within outside
        · exact below
    · simp only [Bool.and_eq_true, decide_eq_true_eq]
      constructor
      · omega
      · rintro (within | ⟨above, _⟩)
        · exact absurd within outside
        · exact absurd above stack

theorem freshMailbox_board : Board freshMailbox where
  sized := by
    refine ⟨by decide, by decide, ?_⟩
    intro vAddr valid
    change vAddr < 0x40000000
    rcases (valid_freshMailbox vAddr).mp valid with within | within
    · unfold rdmaMailbox rdmaMaxEntries at within
      omega
    · exact within.2
  coherent := Untouched.coherent ⟨rfl, rfl, rfl, rfl⟩
  cached := by decide
  mapped := by
    intro slot named
    refine (valid_freshMailbox _).mpr (.inl ?_)
    rw [slotAddr]
    omega

/-- An injected slot whose command is the slot itself, with the tag 0. -/
def injectedBytes : Buffer
  | 0 => 1
  | 16 => 8
  | 19 => 0x30
  | _ => 0

theorem injected_stored : ∃ mem, freshMailbox.writeMem 0 rdmaMailbox 24 injectedBytes = .ok mem ∧
    Board mem ∧ ∀ index < 24, byteAt mem (rdmaMailbox + index) = injectedBytes index := by
  have board := freshMailbox_board
  have ⟨mem, written, coherent, same, stored⟩ :=
    writeMem_valid (board.usable (by decide : 0 < rdmaMaxEntries) 24 (Nat.le_refl 24)) injectedBytes
  refine ⟨mem, written, board.of_layout coherent same, ?_⟩
  intro index inside
  have first : slotAddr 0 = rdmaMailbox := rfl
  rw [stored, first, flatStore, if_pos (by omega), Nat.add_sub_cancel_left]

/-- A host that waits for nothing, with some memory. -/
def hostWith (mem : RevMem) : PanCPU where
  address := 0
  nic := ⟨true, false, 0⟩
  sendMB := []
  trackTags := []
  trackGets := []
  readQueue := []
  zeroRqst := []
  readyForRevoke := false
  revokeHasArrived := true
  pExec := .new
  mem := mem
  procs := []
  symbolStart := 0
  net := []

-- The command pointer of a slot that was never used is 0, and nothing is mapped there.
theorem unused_slot_faults : ¬ Signals (hostWith freshMailbox) 7 entryDoneSuccess fun _ _ => 0 := by
  rintro ⟨mem, returned, _⟩
  have fault : (hostWith freshMailbox).panSignalMsgRecv 7 entryDoneSuccess (fun _ _ => 0) =
      .error (.mem (.segFault 0)) := by
    rfl
  cases fault.symm.trans returned

theorem signal_exact_injected : ∃ mem, freshMailbox.writeMem 0 rdmaMailbox 24 injectedBytes = .ok mem ∧
    Signals (hostWith mem) 0 entryDoneSuccess fun _ _ => 0 := by
  obtain ⟨mem, written, board, stored⟩ := injected_stored
  refine ⟨mem, written, (signal_exact_iff board 0 entryDoneSuccess fun _ _ => 0).mpr ?_⟩
  have word (start : Nat) (inside : start + 8 ≤ 24) : wordAt (byteAt mem) (slotAddr 0 + start) =
      word64 fun index => injectedBytes (start + index) := by
    apply word64_congr
    intro index small
    rw [Nat.add_assoc]
    exact stored _ (by omega)
  have injected : status (byteAt mem) 0 = entryInjected := (word 0 (by decide)).trans (by decide)
  have command : pointer (byteAt mem) 0 = BitVec.ofNat 64 rdmaMailbox :=
    (word 16 (by decide)).trans (by decide)
  have address : (pointer (byteAt mem) 0).toNat = slotAddr 0 := by
    rw [command]
    decide
  have held : Marked (byteAt mem) 0 0 = true := by
    have tag : byteAt mem (slotAddr 0 + 4) = 0 := stored 4 (by decide)
    rw [Marked, injected, commandTag, address, tag]
    rfl
  have read : ReadMarked (byteAt mem) (fun _ _ => 0) 0 0 = true := by
    have tag : readTag (byteAt mem) (fun _ => 0) (pointer (byteAt mem) 0) = 0 := by
      have count : min 8 (pageSize - slotAddr 0 % pageSize) = 8 := by decide
      rw [readTag, address, loadOld, count, if_pos rfl, flatLoad, if_pos (by decide)]
      exact stored 4 (by decide)
    rw [ReadMarked, injected, tag]
    rfl
  have slots : List.range rdmaMaxEntries = 0 :: List.range' 1 254 := by
    rw [List.range_eq_range', rdmaMaxEntries, List.range'_succ]
  obtain ⟨_, _, _, _, _, unseen⟩ := board.readSlot (by decide : 0 < rdmaMaxEntries)
  have same : (hostWith mem).mem = mem := rfl
  rw [same]
  refine ⟨?_, .inl ?_⟩
  · rw [slots, upTo, if_pos read, Followed, address]
    have usable := (board.of_unseen unseen).usable (by decide : 0 < rdmaMaxEntries) 8 (by decide)
    exact ⟨usable_readable usable, trivial⟩
  · rw [slots, List.find?_cons_of_pos read, List.find?_cons_of_pos held]

end Examples
end RevCPU.Pan
