import RevCPU.PanPairing
/-!
Registers over PAN. The packets of ReadReg and WriteReg carry the hart in their size, which getData takes
for the length of the data.
-/
namespace RevCPU.Pan
open Mem RegFile

section Packets
variable (token : BitVec 32) (tag : BitVec 8) (hart : BitVec 16) (reg value : BitVec 64) (src : Int)

/-- The packet that writes a register, and the one that reads it. -/
def writeReg : PanNicEvent := (PanNicEvent.new.buildWriteReg token tag hart reg value).setSrc src

def readReg : PanNicEvent := (PanNicEvent.new.buildReadReg token tag hart reg).setSrc src

theorem writeReg_eq : writeReg token tag hart reg value src =
    { PanNicEvent.new with
        src := src, tag := tag, opcode := .WriteReg, size := hart.setWidth 32, token := token, addr := reg
        data := [value] } := by
  rw [writeReg, PanNicEvent.buildWriteReg, buildNumbered_eq _ token tag rfl]
  rfl

theorem readReg_eq : readReg token tag hart reg src =
    { PanNicEvent.new with
        src := src, tag := tag, opcode := .ReadReg, size := hart.setWidth 32, token := token
        addr := reg } := by
  rw [readReg, PanNicEvent.buildReadReg, buildNumbered_eq _ token tag rfl]
  rfl

theorem hart_toNat : (hart.setWidth 32).toNat = hart.toNat := by
  have bound := hart.isLt
  rw [BitVec.toNat_setWidth, Nat.mod_eq_of_lt (by omega)]

theorem oneWord_writeReg : PanCPU.oneWord (writeReg token tag hart reg value src) =
    if hart = 0 then .ok 0 else if hart.toNat ≤ 8 then .ok value else .error .outOfRange := by
  have blocks := getNumBlocks_eq (hart.setWidth 32)
  rw [hart_toNat] at blocks
  have zero : hart.setWidth 32 = 0 ↔ hart = 0 := by
    rw [← BitVec.toNat_inj, ← BitVec.toNat_inj, hart_toNat]
    rfl
  rw [writeReg_eq, PanCPU.oneWord, PanNicEvent.getData]
  dsimp only
  by_cases none : hart = 0
  · rw [if_pos (zero.mpr none), if_pos none]
  · have some : hart.toNat ≠ 0 := fun nothing => none (BitVec.eq_of_toNat_eq nothing)
    rw [if_neg (none ∘ zero.mp), if_neg none, blocks, List.length_singleton]
    by_cases small : hart.toNat ≤ 8
    · have one : (hart.toNat + 7) / 8 = 1 := by omega
      rw [if_pos small, if_pos (by omega), one]
      rfl
    · rw [if_neg small, if_neg (by omega)]

end Packets

section Registers
variable (core : Core) (regs : RevRegFile)

/-- A value as the registers of a core hold it. -/
def fitted (value : BitVec 64) : BitVec 64 :=
  if core.feature.xlen = 32 then (value.setWidth 32).setWidth 64 else value

def withReg (index : BitVec 8) (value : BitVec 64) : Core :=
  { core with
      file := some (
        if core.feature.xlen = 32 then
          { regs with rv32 := Function.update regs.rv32 index (value.setWidth 32) }
        else { regs with rv64 := Function.update regs.rv64 index value }) }

/-- A hart to write to: it is halted, the token is the reserved one, and the register is not x0. -/
structure Writable (cpu : PanCPU) (token : BitVec 32) (hart : BitVec 16) (reg : BitVec 64) : Prop where
  reserved : cpu.nic.checkToken token = true
  counted : cpu.procs.length < 2 ^ 32
  named : cpu.procs[hart.toNat]? = some core
  halted : core.halted = true
  file : core.file = some regs
  positive : 1 ≤ (reg.setWidth 32).toNat
  inside : (reg.setWidth 32).toNat < Core.numRegs

variable {core regs} {cpu : PanCPU} {token : BitVec 32} {hart : BitVec 16} {reg value : BitVec 64}

theorem index_ne_zero (writable : Writable core regs cpu token hart reg) :
    (reg.setWidth 32).setWidth 8 ≠ (0 : BitVec 8) := by
  intro zero
  have same := congrArg BitVec.toNat zero
  have positive := writable.positive
  have inside := writable.inside
  unfold Core.numRegs at inside
  rw [BitVec.toNat_setWidth, Nat.mod_eq_of_lt (by omega)] at same
  change (reg.setWidth 32).toNat = 0 at same
  omega

theorem debugWriteReg_writable (writable : Writable core regs cpu token hart reg) :
    core.debugWriteReg (reg.setWidth 32) value =
      .ok (some (withReg core regs ((reg.setWidth 32).setWidth 8) value)) := by
  have inside := writable.inside
  have index := index_ne_zero writable
  rw [Core.debugWriteReg, writable.file]
  dsimp only
  rw [if_neg (by simp [writable.halted]), if_neg (by unfold Core.numRegs at *; omega), withReg]
  by_cases narrow : core.feature.xlen = 32
  · rw [if_pos narrow, if_pos narrow, RevRegFile.setX32, if_neg index]
  · rw [if_neg narrow, if_neg narrow, RevRegFile.setX64, if_neg index]

theorem debugReadReg_written (writable : Writable core regs cpu token hart reg) :
    (withReg core regs ((reg.setWidth 32).setWidth 8) value).debugReadReg (reg.setWidth 32) =
      .ok (some (fitted core value)) := by
  have inside := writable.inside
  have index := index_ne_zero writable
  rw [Core.debugReadReg, withReg, fitted]
  dsimp only
  rw [if_neg (by simp [writable.halted]), if_neg (by unfold Core.numRegs at *; omega)]
  by_cases narrow : core.feature.xlen = 32
  · rw [if_pos narrow, if_pos narrow, if_pos narrow, RevRegFile.x32, if_neg index]
    dsimp only
    rw [Function.update_self]
  · rw [if_neg narrow, if_neg narrow, if_neg narrow, RevRegFile.x64, if_neg index]
    dsimp only
    rw [Function.update_self]

theorem withHart_writable (writable : Writable core regs cpu token hart reg) {event : PanNicEvent}
    (asked : event.token = token) (size : event.size = hart.setWidth 32)
    (handle : Core → Except PanFault PanCPU) : cpu.withHart event handle = handle core := by
  have below := (List.getElem?_eq_some_iff.mp writable.named).1
  have counted := writable.counted
  have hart_there : cpu.noHart event = false := by
    rw [PanCPU.noHart, size, hart_toNat, decide_eq_false_iff_not]
    omega
  rw [PanCPU.withHart, asked, writable.reserved, hart_there, size, hart_toNat, writable.named]
  rfl

abbrev namedReg (reg : BitVec 64) : BitVec 8 := (reg.setWidth 32).setWidth 8

/-- WriteReg and ReadReg of one register: the write answers with Success and changes that register alone,
and the response to the read carries the value. -/
def ReadsBack (cpu : PanCPU) (core : Core) (regs : RevRegFile) (write read : PanNicEvent)
    (value : BitVec 64) (rand : BitVec 32) (fresh : Nat → Buffer) : Prop :=
  ∃ written ack after reply,
    cpu.handleNetPANMessage write rand fresh = .ok written ∧
    written.procs =
      cpu.procs.set write.size.toNat (withReg core regs (namedReg write.addr) value) ∧
    written.sendMB = cpu.sendMB ++ [(ack, write.src)] ∧ ack.opcode = .Success ∧ ack.tag = write.tag ∧
    written.handleNetPANMessage read rand fresh = .ok after ∧ after.procs = written.procs ∧
    after.sendMB = written.sendMB ++ [(reply, read.src)] ∧ reply.opcode = .Success ∧
    reply.tag = read.tag ∧ reply.data = [fitted core value]

theorem withReg_fitted {word : BitVec 64} (same : fitted core word = fitted core value) (index : BitVec 8) :
    withReg core regs index word = withReg core regs index value := by
  rw [fitted, fitted] at same
  rw [withReg, withReg]
  by_cases narrow : core.feature.xlen = 32
  · rw [if_pos narrow, if_pos narrow] at same
    have low := congrArg (BitVec.setWidth 32) same
    simp only [BitVec.setWidth_setWidth_of_le, Nat.reduceLeDiff, BitVec.setWidth_eq] at low
    rw [low, if_pos narrow, if_pos narrow]
  · rw [if_neg narrow, if_neg narrow] at same
    rw [same]

variable (writable : Writable core regs cpu token hart reg) (value : BitVec 64)
  (writeTag readTag : BitVec 8) (writer reader : Int) (rand : BitVec 32) (fresh : Nat → Buffer)
include writable

theorem handle_writeReg :
    cpu.handleNetPANMessage (writeReg token writeTag hart reg value writer) rand fresh =
      match PanCPU.oneWord (writeReg token writeTag hart reg value writer) with
      | .error fault => .error fault
      | .ok word =>
        .ok ((cpu.setCore (writeReg token writeTag hart reg value writer)
          (withReg core regs (namedReg reg) word)).panBuildRawSuccess
            (writeReg token writeTag hart reg value writer)) := by
  have event := writeReg_eq token writeTag hart reg value writer
  have opcode : (writeReg token writeTag hart reg value writer).opcode = .WriteReg := by rw [event]
  have addr : (writeReg token writeTag hart reg value writer).addr = reg := by rw [event]
  rw [PanCPU.handleNetPANMessage, opcode]
  dsimp only
  rw [PanCPU.panHandleWriteReg, withHart_writable writable (by rw [event]) (by rw [event]), addr]
  cases PanCPU.oneWord (writeReg token writeTag hart reg value writer) with
  | error fault => rfl
  | ok word =>
    dsimp only
    rw [debugWriteReg_writable writable]

theorem handle_readReg (word : BitVec 64) {written : PanCPU} (same : written.nic = cpu.nic)
    (procs : written.procs = cpu.procs.set hart.toNat (withReg core regs (namedReg reg) word)) :
    ∃ reply, written.handleNetPANMessage (readReg token readTag hart reg reader) rand fresh =
        .ok (written.push reply reader) ∧
      reply.opcode = .Success ∧ reply.tag = readTag ∧ reply.data = [fitted core word] := by
  have event := readReg_eq token readTag hart reg reader
  have opcode : (readReg token readTag hart reg reader).opcode = .ReadReg := by rw [event]
  have addr : (readReg token readTag hart reg reader).addr = reg := by rw [event]
  have below := (List.getElem?_eq_some_iff.mp writable.named).1
  have still : Writable (withReg core regs (namedReg reg) word)
      (if core.feature.xlen = 32 then
        { regs with rv32 := Function.update regs.rv32 (namedReg reg) (word.setWidth 32) }
      else { regs with rv64 := Function.update regs.rv64 (namedReg reg) word })
      written token hart reg := by
    constructor
    · rw [same]
      exact writable.reserved
    · rw [procs, List.length_set]
      exact writable.counted
    · rw [procs, List.getElem?_set_self below]
    · exact writable.halted
    · rfl
    · exact writable.positive
    · exact writable.inside
  rw [PanCPU.handleNetPANMessage, opcode]
  dsimp only
  rw [PanCPU.panHandleReadReg, withHart_writable still (by rw [event]) (by rw [event]), addr,
    debugReadReg_written writable]
  refine ⟨_, rfl, ?_, ?_, ?_⟩
  · rw [PanCPU.panBuildBasicSuccess, buildSuccess_eq]
  · rw [PanCPU.panBuildBasicSuccess, buildSuccess_eq]
    dsimp only
    rw [event]
  · rw [PanCPU.panBuildBasicSuccess, buildSuccess_eq, setSize_eq]
    by_cases narrow : (withReg core regs (namedReg reg) word).feature.xlen = 32
    · rw [if_pos narrow]
      rfl
    · rw [if_neg narrow]
      rfl

theorem readsBack_word {word : BitVec 64}
    (got : PanCPU.oneWord (writeReg token writeTag hart reg value writer) = .ok word) :
    ReadsBack cpu core regs (writeReg token writeTag hart reg value writer)
        (readReg token readTag hart reg reader) value rand fresh ↔
      fitted core word = fitted core value := by
  have event := writeReg_eq token writeTag hart reg value writer
  have size : (writeReg token writeTag hart reg value writer).size.toNat = hart.toNat := by
    rw [event]
    exact hart_toNat hart
  have addr : (writeReg token writeTag hart reg value writer).addr = reg := by rw [event]
  have reads := readReg_eq token readTag hart reg reader
  have src : (readReg token readTag hart reg reader).src = reader := by rw [reads]
  have tag : (readReg token readTag hart reg reader).tag = readTag := by rw [reads]
  have handled := handle_writeReg writable value writeTag writer rand fresh
  rw [got] at handled
  dsimp only at handled
  have procs : ((cpu.setCore (writeReg token writeTag hart reg value writer)
      (withReg core regs (namedReg reg) word)).panBuildRawSuccess
        (writeReg token writeTag hart reg value writer)).procs =
      cpu.procs.set hart.toNat (withReg core regs (namedReg reg) word) := by
    rw [← size]
    rfl
  have ⟨reply, answered, success, replyTag, data⟩ :=
    handle_readReg writable readTag reader rand fresh word (by rfl) procs
  constructor
  · rintro ⟨written, ack, after, other, wrote, _, _, _, _, read, _, sent, _, _, carries⟩
    cases handled.symm.trans wrote
    cases answered.symm.trans read
    rw [src, PanCPU.push, List.append_cancel_left_eq] at sent
    cases sent
    rw [data, List.cons.injEq] at carries
    exact carries.1
  · intro same
    refine ⟨_, _, _, reply, handled, ?_, rfl, ?_, ?_, answered, rfl, ?_, success, ?_, ?_⟩
    · rw [procs, size, addr, withReg_fitted same]
    · rw [buildSuccess_eq]
    · rw [buildSuccess_eq]
    · rw [src]
      rfl
    · rw [replyTag, tag]
    · rw [data, same]

/-- A register that is written over PAN reads back where the hart, taken for a length, is that of one word,
and for the hart 0 where the value is the 0 that is written in its place. -/
theorem reg_reads_back_iff :
    ReadsBack cpu core regs (writeReg token writeTag hart reg value writer)
        (readReg token readTag hart reg reader) value rand fresh ↔
      (1 ≤ hart.toNat ∧ hart.toNat ≤ 8) ∨ (hart = 0 ∧ fitted core value = 0) := by
  have word := oneWord_writeReg token writeTag hart reg value writer
  by_cases zero : hart = 0
  · have nothing : fitted core 0 = 0 := by
      rw [fitted]
      split_ifs <;> rfl
    rw [if_pos zero] at word
    rw [readsBack_word writable value writeTag readTag writer reader rand fresh word, nothing]
    simp [zero, eq_comm]
  · have positive : hart.toNat ≠ 0 := fun nothing => zero (BitVec.eq_of_toNat_eq nothing)
    rw [if_neg zero] at word
    by_cases small : hart.toNat ≤ 8
    · rw [if_pos small] at word
      rw [readsBack_word writable value writeTag readTag writer reader rand fresh word]
      exact ⟨fun _ => .inl ⟨by omega, small⟩, fun _ => rfl⟩
    · rw [if_neg small] at word
      constructor
      · rintro ⟨written, ack, after, other, wrote, _⟩
        rw [handle_writeReg writable, word] at wrote
        cases wrote
      · rintro (⟨_, within⟩ | ⟨nothing, _⟩)
        · exact absurd within small
        · exact absurd nothing zero

end Registers

section Examples

def haltedCore : Core :=
  ⟨{ features := 66, xlen := 64, minCost := 1, maxCost := 1 }, true, false, some default, 0⟩

/-- A device with two halted cores and the token 7 reserved. -/
def twoHarts : PanCPU := { smallDevice with procs := [haltedCore, haltedCore] }

theorem twoHarts_writable {hart : BitVec 16} (named : twoHarts.procs[hart.toNat]? = some haltedCore) :
    Writable haltedCore default twoHarts 7 hart 5 := by
  constructor
  · rfl
  · decide
  · exact named
  · rfl
  · rfl
  · decide
  · decide

theorem reg_reads_back_one : ReadsBack twoHarts haltedCore default
    (writeReg 7 3 1 5 42 9) (readReg 7 4 1 5 9) 42 0 fun _ _ => 0 :=
  (reg_reads_back_iff (twoHarts_writable rfl) 42 3 4 9 9 0 fun _ _ => 0).mpr (.inl (by decide))

-- The value of a write to the hart 0 is not looked at, and 0 is written.
theorem first_hart_loses : ¬ ReadsBack twoHarts haltedCore default
    (writeReg 7 3 0 5 42 9) (readReg 7 4 0 5 9) 42 0 fun _ _ => 0 := by
  have word : PanCPU.oneWord (writeReg 7 3 0 5 42 9) = .ok 0 := by decide
  rw [readsBack_word (twoHarts_writable rfl) 42 3 4 9 9 0 (fun _ _ => 0) word]
  decide

end Examples
end RevCPU.Pan
