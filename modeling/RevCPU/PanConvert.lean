import RevCPU.PanCommand
/-!
What the conversion of a command reads and leaves alone. ReadU64 returns a word as it is where the word does
not cross a page, and the switch over the opcodes has a form for every shape.
-/
namespace RevCPU.Pan
open Mem MemRefine RegFile OldRead ReadPaths

section Words
variable {mem after : RevMem} {flat : Nat → Byte} {cpu : PanCPU}

/-- The memory of a CPU with a PAN network: the completion word is mapped in it as well. -/
structure PanMem (mem : RevMem) : Prop extends Board mem where
  completion : mem.isValidVirtAddr completionAddr = true

theorem PanMem.of_unseen (board : PanMem mem) (unseen : Unseen mem after) : PanMem after where
  toBoard := board.toBoard.of_unseen unseen
  completion := by
    rw [isValidVirtAddr_layout unseen.layout]
    exact board.completion

theorem valid_addMemSegAt (mem : RevMem) (base size vAddr : Nat) :
    (mem.addMemSegAt base size).isValidVirtAddr vAddr =
      ((MemSegment.make base size).contains vAddr || mem.isValidVirtAddr vAddr) := by
  have segs : (mem.addMemSegAt base size).memSegs = mem.memSegs ++ [MemSegment.make base size] := rfl
  rw [RevMem.isValidVirtAddr, RevMem.isValidVirtAddr, segs, List.any_append]
  cases mem.memSegs.any fun seg => seg.contains vAddr with
  | true => simp
  | false =>
    simp only [List.any_cons, List.any_nil, Bool.or_false, Bool.false_or]
    cases (MemSegment.make base size).contains vAddr with
    | true => rfl
    | false =>
      simp only [Bool.false_eq_true, if_false, Bool.false_or]
      rfl

/-- The memory with the mailbox and the completion word, which nothing has used. -/
def freshPan : RevMem := freshMailbox.addMemSegAt completionAddr 8

theorem valid_freshPan {vAddr : Nat} (valid : freshMailbox.isValidVirtAddr vAddr = true) :
    freshPan.isValidVirtAddr vAddr = true := by
  rw [freshPan, valid_addMemSegAt, valid, Bool.or_true]

theorem freshPan_mem : PanMem freshPan where
  sized := by
    refine ⟨by decide, by decide, ?_⟩
    intro vAddr valid
    rw [freshPan, valid_addMemSegAt, Bool.or_eq_true] at valid
    rcases valid with inside | valid
    · have top : (MemSegment.make completionAddr 8).topAddr = completionAddr + 8 := by decide
      change vAddr < 0x40000000
      rw [MemSegment.contains, top] at inside
      simp only [Bool.and_eq_true, decide_eq_true_eq] at inside
      unfold completionAddr at inside
      omega
    · exact freshMailbox_board.sized.bounded vAddr valid
  coherent := Untouched.coherent ⟨rfl, rfl, rfl, rfl⟩
  cached := by decide
  mapped := fun slot named => valid_freshPan (freshMailbox_board.mapped slot named)
  completion := by
    rw [freshPan, valid_addMemSegAt]
    decide

def seenWord (flat : Nat → Byte) (addr : Nat) (value : Buffer) : BitVec 64 :=
  word64 (loadOld flat addr 8 value)

/-- The first bytes of a word are read as they are: they lie in one page, or what the read leaves behind the
page boundary happens to be there. -/
def Whole (flat : Nat → Byte) (addr count : Nat) (value : Buffer) : Prop :=
  ∀ index < count, pageRest addr ≤ index →
    (if index = pageRest addr then flat (addr + 7) else value index) = flat (addr + index)

theorem loadOld_word (addr : Nat) (value : Buffer) {index : Nat} (inside : index < 8) :
    loadOld flat addr 8 value index = if index < pageRest addr then flat (addr + index)
      else if index = pageRest addr then flat (addr + 7) else value index := by
  have count : pageSize - addr % pageSize = pageRest addr := rfl
  rw [loadOld, count]
  by_cases single : 8 ≤ pageRest addr
  · rw [if_pos (Nat.min_eq_left single).symm, flatLoad, if_pos (by omega), if_pos (by omega)]
  · rw [if_neg (by omega), Nat.min_eq_right (by omega)]
    by_cases edge : index = pageRest addr
    · rw [if_neg (by omega), if_pos edge, edge, Function.update_self]
    · rw [Function.update_of_ne edge, flatLoad, if_neg edge]

theorem loadOld_whole {addr count : Nat} {value : Buffer} (small : count ≤ 8) :
    (∀ index < count, loadOld flat addr 8 value index = flat (addr + index)) ↔
      Whole flat addr count value := by
  constructor
  · intro same index inside behind
    have byte := same index inside
    rw [loadOld_word addr value (by omega), if_neg (by omega)] at byte
    exact byte
  · intro whole index inside
    rw [loadOld_word addr value (by omega)]
    by_cases front : index < pageRest addr
    · rw [if_pos front]
    · rw [if_neg front]
      exact whole index inside (Nat.le_of_not_lt front)

theorem seenWord_whole {addr : Nat} {value : Buffer} :
    seenWord flat addr value = wordAt flat addr ↔ Whole flat addr 8 value :=
  (word64_inj _ _).trans (loadOld_whole (Nat.le_refl 8))

theorem readWord_seen (cpu : PanCPU) (board : PanMem cpu.mem) {addr : BitVec 64}
    (touchable : Touchable cpu.mem addr.toNat 8) (value : Buffer) :
    cpu.readWord addr value = .ok (seenWord (byteAt cpu.mem) addr.toNat value,
        { cpu with mem := afterRead cpu.mem addr.toNat 8 }) ∧
      Unseen cpu.mem (afterRead cpu.mem addr.toNat 8) := by
  have usable : Usable cpu.mem addr.toNat 8 :=
    ⟨board.sized, board.coherent, board.cached, by decide, touchable⟩
  have ⟨read, unseen⟩ := readMemOld_seen board.sized board.coherent board.cached usable.short
    (usable_readable usable) value
  refine ⟨?_, unseen⟩
  rw [PanCPU.readWord, PanCPU.readU64, read, seenWord]
  dsimp only
  rw [wordsOf]
  simp only [Nat.mul_zero, Nat.zero_add]

theorem touchable_unseen {addr len : Nat} (touchable : Touchable mem addr len) (unseen : Unseen mem after) :
    Touchable after addr len where
  first := by
    rw [isValidVirtAddr_layout unseen.layout]
    exact touchable.first
  next := by
    intro crossing
    rw [isValidVirtAddr_layout unseen.layout]
    exact touchable.next crossing

theorem touchable_bound (board : PanMem mem) {addr : BitVec 64} (touchable : Touchable mem addr.toNat 8)
    {offset : Nat} (small : offset ≤ 16) :
    (addr + BitVec.ofNat 64 offset).toNat = addr.toNat + offset := by
  have inside := board.sized.bounded addr.toNat touchable.first
  have bound := board.sized.small
  rw [BitVec.toNat_add, BitVec.toNat_ofNat, Nat.mod_eq_of_lt (by omega : offset < 2 ^ 64)]
  exact Nat.mod_eq_of_lt (by omega)

end Words

section Steps

theorem ok_bind {α β ε : Type} (value : α) (next : α → Except ε β) :
    (Except.ok value >>= next) = next value := rfl

theorem bind_inv {α β ε : Type} {value : Except ε α} {next : α → Except ε β} {result : β}
    (returned : (value >>= next) = .ok result) :
    ∃ inner, value = .ok inner ∧ next inner = .ok result := by
  cases value with
  | error fault => cases returned
  | ok inner => exact ⟨inner, rfl, returned⟩

end Steps

section Forms
variable (cpu : PanCPU) (addr : BitVec 64) (head : Header) (fresh : Nat → Buffer) {opcode : PanOpcode}
  (event : PanNicEvent)

theorem convertOpcode_get (shape : opcode.shape = .get) : cpu.convertOpcode addr head fresh opcode event =
    cpu.convertGet addr head fresh (event.buildGet head.token head.tag opcode) := by
  cases opcode <;> first | rfl | cases shape

theorem convertOpcode_put (shape : opcode.shape = .put) : cpu.convertOpcode addr head fresh opcode event =
    cpu.convertPut addr head fresh (event.buildPut head.token head.tag opcode) := by
  cases opcode <;> first | rfl | cases shape

theorem convertOpcode_numbered (shape : opcode.shape = .numbered) :
    cpu.convertOpcode addr head fresh opcode event =
      .ok (event.buildNumbered head.token head.tag opcode (head.size.setWidth 16), cpu) := by
  cases opcode <;> first | rfl | cases shape

theorem convertOpcode_plain (shape : opcode.shape = .plain) :
    cpu.convertOpcode addr head fresh opcode .new =
      .ok (PanNicEvent.new.buildHead head.token head.tag opcode, cpu) := by
  cases opcode
  case Success =>
    rw [PanCPU.convertOpcode, buildSuccess_eq]
    rfl
  case Failed =>
    rw [PanCPU.convertOpcode, buildFailed_eq]
    rfl
  all_goals first | rfl | cases shape

theorem convertOpcode_addressed (shape : opcode.shape = .addressed) :
    cpu.convertOpcode addr head fresh opcode .new =
      cpu.convertAddr addr fresh (PanNicEvent.new.buildHead head.token head.tag opcode).setAddr := by
  cases opcode
  case Exec =>
    rw [PanCPU.convertOpcode]
    congr 1
    funext cmdAddr
    -- The size is the one of the new event.
    have base : (PanNicEvent.new.buildHead head.token head.tag .Exec).opcode.getType = .PanBase := by
      change PanOpcode.Exec.getType = .PanBase
      rfl
    rw [PanNicEvent.buildExec, setSize_base base]
    rfl
  all_goals first | rfl | cases shape

theorem convertOpcode_future (shape : opcode.shape = .future) :
    cpu.convertOpcode addr head fresh opcode event =
      .ok ((event.buildHead head.token head.tag opcode).setAddr 0, cpu) := by
  cases opcode <;> first | rfl | cases shape

/-- The opcode of a shape that only one opcode has. -/
def Shape.only : Shape → Option PanOpcode
  | .revoke => some .Revoke
  | .readReg => some .ReadReg
  | .writeReg => some .WriteReg
  | .botw => some .BOTW
  | .reserved => some .PanRsvd
  | _ => none

theorem shape_only {only : PanOpcode} (alone : opcode.shape.only = some only) : opcode = only := by
  cases opcode <;> cases alone <;> rfl

theorem shape_base
    (sized : opcode.shape = .numbered ∨ opcode.shape = .readReg ∨ opcode.shape = .writeReg) :
    opcode.getType = .PanBase := by
  cases opcode <;> first | rfl | simp [PanOpcode.shape] at sized

end Forms

section Beside
variable {cpu middle after : PanCPU} {addr : BitVec 64} {head : Header} {kind : PanOpcode}
  {fresh : Nat → Buffer} {event built : PanNicEvent}

/-- Only the memory and the gets differ, and no byte of the memory outside the completion word. -/
structure Beside (cpu after : PanCPU) : Prop where
  same : after = { cpu with mem := after.mem, trackGets := after.trackGets }
  coherent : Coherent after.mem
  layout : layout after.mem = layout cpu.mem
  bytes : ∀ vAddr, vAddr < completionAddr ∨ completionAddr + 8 ≤ vAddr →
    byteAt after.mem vAddr = byteAt cpu.mem vAddr

theorem Beside.trans (first : Beside cpu middle) (second : Beside middle after) : Beside cpu after where
  same := by
    rw [second.same, first.same]
  coherent := second.coherent
  layout := second.layout.trans first.layout
  bytes := by
    intro vAddr outside
    rw [second.bytes vAddr outside, first.bytes vAddr outside]

theorem Beside.of_unseen {mem : RevMem} (gets : List TrackGet) (unseen : Unseen cpu.mem mem) :
    Beside cpu { cpu with mem := mem, trackGets := gets } :=
  ⟨rfl, unseen.coherent, unseen.layout, fun vAddr _ => unseen.view vAddr⟩

theorem PanMem.of_beside (board : PanMem cpu.mem) (beside : Beside cpu after) : PanMem after.mem where
  toBoard := board.toBoard.of_layout beside.coherent beside.layout
  completion := by
    rw [isValidVirtAddr_layout beside.layout]
    exact board.completion

theorem readBytes_of_readWord {value : Buffer} {word : BitVec 64}
    (read : cpu.readWord addr value = .ok (word, after)) :
    ∃ data, cpu.readBytes addr 8 value = .ok (data, after) := by
  rw [PanCPU.readWord, PanCPU.readU64] at read
  rw [PanCPU.readBytes]
  cases reads : cpu.mem.readMemOld addr.toNat 8 value with
  | error fault =>
    rw [reads] at read
    cases read
  | ok pair =>
    rw [reads] at read
    cases read
    exact ⟨pair.1, rfl⟩

section Reads
variable (board : PanMem cpu.mem)
include board

theorem readBytes_beside {len : Nat} {target data : Buffer} (bound : len < 2 ^ 32)
    (read : cpu.readBytes addr len target = .ok (data, after)) : Beside cpu after := by
  rw [PanCPU.readBytes] at read
  by_cases readable : Readable cpu.mem addr.toNat len
  · have ⟨_, returned, _, unseen⟩ :=
      readMemOld_leaves board.sized board.coherent board.cached bound readable target
    rw [returned] at read
    cases read
    exact .of_unseen cpu.trackGets unseen
  · have ⟨_, faulted⟩ := readMemOld_unreadable readable target
    rw [faulted] at read
    cases read

theorem readWord_beside {value : Buffer} {word : BitVec 64}
    (read : cpu.readWord addr value = .ok (word, after)) : Beside cpu after := by
  have ⟨_, bytes⟩ := readBytes_of_readWord read
  exact readBytes_beside board (by decide) bytes

theorem writeWord_completion (word : BitVec 64) :
    ∃ mem, cpu.writeWord (BitVec.ofNat 64 completionAddr) word = .ok { cpu with mem := mem } ∧
      Beside cpu { cpu with mem := mem } := by
  have inside : Usable cpu.mem completionAddr 8 := by
    refine ⟨board.sized, board.coherent, board.cached, by decide, board.completion, ?_⟩
    intro crossing
    exact absurd crossing (by decide)
  have ⟨mem, written, coherent, same, stored⟩ := writeMem_valid inside (bytesOf word)
  refine ⟨mem, ?_, rfl, coherent, same, ?_⟩
  · rw [PanCPU.writeWord]
    have place : (BitVec.ofNat 64 completionAddr).toNat = completionAddr := by decide
    rw [place, written]
  · intro vAddr outside
    exact (stored vAddr).trans (if_neg (by omega))

theorem convertGet_ok {build : BitVec 64 → BitVec 32 → PanNicEvent}
    (converted : cpu.convertGet addr head fresh build = .ok (event, after)) :
    (∃ word, event = build word head.size) ∧ Beside cpu after := by
  have ⟨⟨word, middle⟩, read, rest⟩ := bind_inv converted
  have first := readWord_beside board read
  have ⟨⟨third, last⟩, readData, done⟩ := bind_inv rest
  have second := readWord_beside (board.of_beside first) readData
  cases done
  refine ⟨⟨word, rfl⟩, first.trans ?_⟩
  exact ⟨by rw [second.same], second.coherent, second.layout, second.bytes⟩

theorem convertPut_ok {build : BitVec 64 → BitVec 32 → (Nat → BitVec 64) → PanNicEvent}
    (converted : cpu.convertPut addr head fresh build = .ok (event, after)) :
    (∃ word data, event = build word head.size data) ∧ Beside cpu after := by
  have ⟨⟨word, middle⟩, read, rest⟩ := bind_inv converted
  have first := readWord_beside board read
  have ⟨⟨third, words⟩, readThird, restData⟩ := bind_inv rest
  have second := first.trans (readWord_beside (board.of_beside first) readThird)
  have ⟨⟨data, last⟩, readData, done⟩ := bind_inv restData
  have final := second.trans (readBytes_beside (board.of_beside second) head.size.isLt readData)
  cases done
  exact ⟨⟨word, _, rfl⟩, final⟩

theorem convertAddr_ok {build : BitVec 64 → PanNicEvent}
    (converted : cpu.convertAddr addr fresh build = .ok (event, after)) :
    (∃ word, event = build word) ∧ Beside cpu after := by
  have ⟨⟨word, middle⟩, read, done⟩ := bind_inv converted
  have first := readWord_beside board read
  cases done
  exact ⟨⟨word, rfl⟩, first⟩

theorem convertWriteReg_ok (converted : cpu.convertWriteReg addr head fresh event = .ok (built, after)) :
    (∃ word data, built = event.buildWriteReg head.token head.tag (head.size.setWidth 16) word data) ∧
      Beside cpu after := by
  have ⟨⟨word, middle⟩, read, rest⟩ := bind_inv converted
  have first := readWord_beside board read
  have ⟨⟨data, last⟩, readData, done⟩ := bind_inv rest
  have second := first.trans (readWord_beside (board.of_beside first) readData)
  cases done
  exact ⟨⟨word, data, rfl⟩, second⟩

theorem convertBOTW_ok (converted : cpu.convertBOTW addr head fresh event = .ok (built, after)) :
    (∃ data, built = event.buildBOTW head.token head.tag head.varArgs data head.offset) ∧
      Beside cpu after := by
  have bound := head.varArgs.isLt
  have ⟨⟨data, middle⟩, read, done⟩ := bind_inv converted
  have first := readBytes_beside board (by omega) read
  cases done
  exact ⟨⟨_, rfl⟩, first⟩

theorem convertRevoke_ok (converted : cpu.convertRevoke head event = .ok (built, after)) :
    built = event.buildRevoke head.token head.tag ∧ Beside cpu after := by
  have ⟨mem, wrote, beside⟩ := writeWord_completion board 1
  rw [PanCPU.convertRevoke, wrote, ok_bind] at converted
  cases converted
  exact ⟨rfl, beside⟩

end Reads

theorem setSize_opcode (event : PanNicEvent) (size : BitVec 32) :
    (event.setSize size).opcode = event.opcode := by
  rw [setSize_eq]

theorem setData_opcode (event : PanNicEvent) (input : Nat → BitVec 64) (size : BitVec 32) :
    (event.setData input size).opcode = event.opcode := by
  rw [PanNicEvent.setData]
  split_ifs <;> rfl

theorem buildGet_opcode (event : PanNicEvent) (token : BitVec 32) (tag : BitVec 8) (word : BitVec 64)
    (size : BitVec 32) : (event.buildGet token tag kind word size).opcode = kind :=
  setSize_opcode _ size

theorem buildNumbered_opcode (event : PanNicEvent) (token : BitVec 32) (tag : BitVec 8) (number : BitVec 16) :
    (event.buildNumbered token tag kind number).opcode = kind :=
  setSize_opcode _ _

theorem convertOpcode_ok (board : PanMem cpu.mem)
    (converted : cpu.convertOpcode addr head fresh kind .new = .ok (event, after)) :
    event.opcode = kind ∧ Beside cpu after := by
  have still : Beside cpu cpu := ⟨rfl, board.coherent, rfl, fun _ _ => rfl⟩
  cases shape : kind.shape with
  | get =>
    rw [convertOpcode_get cpu addr head fresh .new shape] at converted
    obtain ⟨⟨_, built⟩, beside⟩ := convertGet_ok board converted
    rw [built]
    exact ⟨buildGet_opcode .new _ _ _ _, beside⟩
  | put =>
    rw [convertOpcode_put cpu addr head fresh .new shape] at converted
    obtain ⟨⟨_, _, built⟩, beside⟩ := convertPut_ok board converted
    rw [built, PanNicEvent.buildPut, setData_opcode]
    exact ⟨buildGet_opcode .new _ _ _ _, beside⟩
  | numbered =>
    rw [convertOpcode_numbered cpu addr head fresh .new shape] at converted
    cases converted
    exact ⟨buildNumbered_opcode .new _ _ _, still⟩
  | plain =>
    rw [convertOpcode_plain cpu addr head fresh shape] at converted
    cases converted
    exact ⟨rfl, still⟩
  | revoke =>
    have named : kind = .Revoke := shape_only (congrArg Shape.only shape)
    subst named
    obtain ⟨built, beside⟩ := convertRevoke_ok board converted
    rw [built]
    exact ⟨rfl, beside⟩
  | addressed =>
    rw [convertOpcode_addressed cpu addr head fresh shape] at converted
    obtain ⟨⟨_, built⟩, beside⟩ := convertAddr_ok board converted
    rw [built]
    exact ⟨rfl, beside⟩
  | readReg =>
    have named : kind = .ReadReg := shape_only (congrArg Shape.only shape)
    subst named
    obtain ⟨⟨_, built⟩, beside⟩ := convertAddr_ok board converted
    rw [built]
    exact ⟨buildNumbered_opcode .new _ _ _, beside⟩
  | writeReg =>
    have named : kind = .WriteReg := shape_only (congrArg Shape.only shape)
    subst named
    obtain ⟨⟨_, _, built⟩, beside⟩ := convertWriteReg_ok board converted
    rw [built, PanNicEvent.buildWriteReg, setData_opcode]
    exact ⟨buildNumbered_opcode .new _ _ _, beside⟩
  | future =>
    rw [convertOpcode_future cpu addr head fresh .new shape] at converted
    cases converted
    exact ⟨rfl, still⟩
  | botw =>
    have named : kind = .BOTW := shape_only (congrArg Shape.only shape)
    subst named
    obtain ⟨⟨_, built⟩, beside⟩ := convertBOTW_ok board converted
    rw [built, PanNicEvent.buildBOTW, setData_opcode]
    exact ⟨rfl, beside⟩
  | reserved =>
    have named : kind = .PanRsvd := shape_only (congrArg Shape.only shape)
    rw [named] at converted
    cases converted

theorem panConvert_inv (converted : cpu.panConvertRDMAtoEvent addr event fresh = .ok (built, after)) :
    ∃ payload middle head opcode inner, cpu.readWord addr (fresh 0) = .ok (payload, middle) ∧
      decodeHeader payload = some head ∧ PanOpcode.ofCode head.code = some opcode ∧
      middle.convertOpcode addr head fresh opcode event = .ok (inner, after) ∧
      built = inner.setSrc after.address := by
  have ⟨⟨payload, middle⟩, read, rest⟩ := bind_inv converted
  dsimp only at rest
  cases decoded : decodeHeader payload with
  | none =>
    rw [decoded] at rest
    cases rest
  | some head =>
    rw [decoded] at rest
    dsimp only at rest
    cases found : PanOpcode.ofCode head.code with
    | none =>
      rw [found] at rest
      cases rest
    | some opcode =>
      rw [found] at rest
      have ⟨⟨inner, last⟩, switched, done⟩ := bind_inv rest
      cases done
      exact ⟨payload, middle, head, opcode, inner, read, decoded, found, switched, rfl⟩

end Beside
end RevCPU.Pan
