import RevCPU.PanConvert
import RevCPU.PanResults
/-!
The events that PANConvertRDMAtoEvent makes of commands.
-/
namespace RevCPU.Pan
open Mem MemRefine RegFile OldRead ReadPaths

section Fields

/-- The fields of the first word fit the packet of the opcode. -/
structure HeadFits (opcode : PanOpcode) (head : Header) : Prop where
  known : opcode ≠ .PanRsvd
  size : head.size.toNat < 2 ^ opcode.getType.width
  offset : head.offset.toNat < 2 ^ 18

theorem decodeHeader_fits {payload : BitVec 64} {head : Header} {opcode : PanOpcode}
    (decoded : decodeHeader payload = some head) (found : PanOpcode.ofCode head.code = some opcode) :
    HeadFits opcode head := by
  have ⟨_, _, fields⟩ := decodeHeader_some decoded
  rw [← code_ofCode found] at fields
  have bound := payload.isLt
  have known : opcode ≠ .PanRsvd := by
    rintro rfl
    have code : PanOpcode.PanRsvd.code.toNat = 2 := rfl
    omega
  refine ⟨known, ?_, ?_⟩
  · cases type : opcode.getType with
    | PanBase =>
      have code := base_code type
      change _ < 2 ^ 16
      omega
    | PanStream =>
      have code := stream_code type
      change _ < 2 ^ 20
      omega
    | PanRsvd => cases opcode <;> first | exact absurd rfl known | cases type
    | PanBOTW =>
      have botw : opcode = .BOTW := by
        cases opcode <;> first | rfl | cases type
      have code : PanOpcode.BOTW.code.toNat = 3 := rfl
      rw [botw] at fields
      change _ < 2 ^ 0
      rcases fields with fields | fields | ⟨_, _, size, _⟩
      · omega
      · omega
      · rw [size]
        decide
  · rcases fields with ⟨_, _, _, _, offset⟩ | ⟨_, _, _, _, offset⟩ | ⟨_, _, _, _, offset⟩
    · rw [offset]
      decide
    · rw [offset]
      decide
    · omega

theorem mask_fits {value : BitVec 32} {width : Nat} (small : width < 32) (fits : value.toNat < 2 ^ width) :
    value &&& BitVec.ofNat 32 (2 ^ width - 1) = value := by
  have power : 2 ^ width < 2 ^ 32 := Nat.pow_lt_pow_right (by decide) small
  apply BitVec.eq_of_toNat_eq
  rw [BitVec.toNat_and, BitVec.toNat_ofNat, Nat.mod_eq_of_lt (by omega), Nat.and_two_pow_sub_one_eq_mod]
  exact Nat.mod_eq_of_lt fits

theorem setSize_fits {event : PanNicEvent} {size : BitVec 32}
    (fits : size.toNat < 2 ^ event.opcode.getType.width) :
    event.setSize size = { event with size := size } := by
  have empty (none : size.toNat < 2 ^ 0) : { event with size := 0 } = { event with size := size } := by
    have zero : size = 0 := BitVec.eq_of_toNat_eq (Nat.lt_one_iff.mp none)
    rw [zero]
  rw [PanNicEvent.setSize]
  cases type : event.opcode.getType with
  | PanBase =>
    rw [type] at fits
    exact congrArg (fun size => { event with size := size }) (mask_fits (by decide) fits)
  | PanStream =>
    rw [type] at fits
    exact congrArg (fun size => { event with size := size }) (mask_fits (by decide) fits)
  | PanRsvd =>
    rw [type] at fits
    exact empty fits
  | PanBOTW =>
    rw [type] at fits
    exact empty fits

theorem setData_empty {event : PanNicEvent} (empty : event.data = []) (input : Nat → BitVec 64)
    (size : BitVec 32) :
    event.setData input size = { event with data := (List.range (getNumBlocks size)).map input } := by
  rw [PanNicEvent.setData]
  split_ifs with zero
  · rw [zero]
    cases event
    cases empty
    rfl
  · rw [empty, List.nil_append]

end Fields

/-- The memory after the second and the third word of a command have been read. -/
def wordsRead (mem : RevMem) (addr : Nat) : RevMem := afterRead (afterRead mem (addr + 8) 8) (addr + 16) 8

section Events
variable (mem : RevMem) (place : Nat) (fresh : Nat → Buffer) (kind : PanOpcode) (head : Header)

def seenThird : BitVec 64 := seenWord (byteAt mem) (place + 16) (fresh 2)

def DataReadable : Prop :=
  match kind.shape with
  | .put => Readable (wordsRead mem place) (seenThird mem place fresh).toNat head.size.toNat
  | .botw => Readable mem (place + 8) (head.varArgs.toNat * 8)
  | _ => True

/-- What the data of the event is made of. -/
def DataBuilt (data : List (BitVec 64)) : Prop :=
  match kind.shape with
  | .put => data.length = getNumBlocks head.size ∧ ∀ index < head.size.toNat, bufferOf data index =
      leaves (wordsRead mem place) (seenThird mem place fresh).toNat head.size.toNat (fresh 3) index
  | .writeReg => data = [seenThird mem place fresh]
  | .botw => data.length = getNumBlocks (head.varArgs.setWidth 32)
  | _ => data = []

structure EventBuilt (event : PanNicEvent) : Prop where
  opcode : event.opcode = kind
  token : event.token = head.token
  tag : event.tag = head.tag
  varArgs : event.varArgs = 0
  size : event.size = if kind.shape.hasSize then head.size else 0
  offset : event.offset = if kind = .BOTW then head.offset else 0
  addr : event.addr = if kind.shape.readsAddr then seenWord (byteAt mem) (place + 8) (fresh 1) else 0
  data : DataBuilt mem place fresh kind head event.data

def getsBuilt : List TrackGet :=
  if kind.shape = .get then [⟨head.tag, seenThird mem place fresh, head.size⟩] else []

/-- The words that the conversion of a shape reads are mapped. -/
structure Mapped (mem : RevMem) (addr : BitVec 64) (shape : Shape) : Prop where
  head : Touchable mem addr.toNat 8
  second : shape.readsAddr = true → Touchable mem (addr.toNat + 8) 8
  third : shape.hasThird = true → Touchable mem (addr.toNat + 16) 8

variable {mem place fresh kind head} {cpu after : PanCPU} {addr : BitVec 64} {event : PanNicEvent}

/-- How the conversion behind the first word ends. -/
def Converted (cpu : PanCPU) (addr : BitVec 64) (fresh : Nat → Buffer) (kind : PanOpcode) (head : Header)
    (result : Except PanFault (PanNicEvent × PanCPU)) : Prop :=
  (DataReadable cpu.mem addr.toNat fresh kind head → ∃ event after, result = .ok (event, after) ∧
    EventBuilt cpu.mem addr.toNat fresh kind head event ∧
    after.trackGets = cpu.trackGets ++ getsBuilt cpu.mem addr.toNat fresh kind head) ∧
  (¬ DataReadable cpu.mem addr.toNat fresh kind head → ∃ fault, result = .error fault)

-- A command without data is converted wherever its words are mapped.
theorem converted_ok (readable : DataReadable cpu.mem addr.toNat fresh kind head)
    (built : EventBuilt cpu.mem addr.toNat fresh kind head event)
    (gets : after.trackGets = cpu.trackGets ++ getsBuilt cpu.mem addr.toNat fresh kind head) :
    Converted cpu addr fresh kind head (.ok (event, after)) :=
  ⟨fun _ => ⟨event, after, rfl, built, gets⟩, fun never => absurd readable never⟩

section Ends
variable (board : PanMem cpu.mem) (fits : HeadFits kind head) (mapped : Mapped cpu.mem addr kind.shape)

theorem second_toNat (board : PanMem cpu.mem) (mapped : Mapped cpu.mem addr kind.shape) :
    (addr + 8).toNat = addr.toNat + 8 :=
  touchable_bound board mapped.head (by decide)

theorem third_toNat (board : PanMem cpu.mem) (mapped : Mapped cpu.mem addr kind.shape) :
    (addr + 16).toNat = addr.toNat + 16 :=
  touchable_bound board mapped.head (by decide)

include board mapped in
theorem readSecond (fresh : Nat → Buffer) (asks : kind.shape.readsAddr = true) :
    cpu.readWord (addr + 8) (fresh 1) = .ok (seenWord (byteAt cpu.mem) (addr.toNat + 8) (fresh 1),
        { cpu with mem := afterRead cpu.mem (addr.toNat + 8) 8 }) ∧
      Unseen cpu.mem (afterRead cpu.mem (addr.toNat + 8) 8) := by
  have touchable := mapped.second asks
  rw [← second_toNat board mapped] at touchable ⊢
  exact readWord_seen cpu board touchable (fresh 1)

include board mapped in
theorem readThird (fresh : Nat → Buffer) (asks : kind.shape.readsAddr = true)
    (has : kind.shape.hasThird = true) :
    ({ cpu with mem := afterRead cpu.mem (addr.toNat + 8) 8 } : PanCPU).readWord (addr + 16) (fresh 2) =
        .ok (seenThird cpu.mem addr.toNat fresh, { cpu with mem := wordsRead cpu.mem addr.toNat }) ∧
      Unseen cpu.mem (wordsRead cpu.mem addr.toNat) := by
  have ⟨_, unseen⟩ := readSecond board mapped fresh asks
  have touchable := touchable_unseen (mapped.third has) unseen
  rw [← third_toNat board mapped] at touchable
  have ⟨read, further⟩ := readWord_seen { cpu with mem := afterRead cpu.mem (addr.toNat + 8) 8 }
    (board.of_unseen unseen) touchable (fresh 2)
  dsimp only at read further
  rw [third_toNat board mapped, funext unseen.view] at read
  rw [third_toNat board mapped] at further
  exact ⟨read, unseen.trans further⟩

theorem notBotw (other : kind.shape ≠ .botw) : kind ≠ .BOTW := by
  rintro rfl
  exact other rfl

theorem converted_bare {shape : Shape} (is : kind.shape = shape) (data : shape.hasThird = false)
    (other : shape ≠ .botw) {size : BitVec 32} {word : BitVec 64}
    (sizeIs : (if shape.hasSize then head.size else 0) = size)
    (wordIs : (if shape.readsAddr then seenWord (byteAt cpu.mem) (addr.toNat + 8) (fresh 1) else 0) = word)
    (gets : after.trackGets = cpu.trackGets) :
    Converted cpu addr fresh kind head (.ok ({ PanNicEvent.new with
      opcode := kind, token := head.token, tag := head.tag, size := size, addr := word }, after)) := by
  subst is
  refine converted_ok ?_ ⟨rfl, rfl, rfl, rfl, sizeIs.symm, ?_, wordIs.symm, ?_⟩ ?_
  · rw [DataReadable]
    cases shape : kind.shape <;> rw [shape] at data other <;> trivial
  · rw [if_neg (notBotw other)]
    rfl
  · rw [DataBuilt]
    cases shape : kind.shape <;> rw [shape] at data other <;>
      first | rfl | exact absurd rfl other | cases data
  · have none : kind.shape ≠ .get := by
      intro same
      rw [same] at data
      cases data
    rw [getsBuilt, if_neg none, gets, List.append_nil]

theorem converted_plain (shape : kind.shape = .plain) :
    Converted cpu addr fresh kind head (cpu.convertOpcode addr head fresh kind .new) := by
  rw [convertOpcode_plain cpu addr head fresh shape]
  exact converted_bare shape rfl (by decide) rfl rfl rfl

theorem converted_future (shape : kind.shape = .future) :
    Converted cpu addr fresh kind head (cpu.convertOpcode addr head fresh kind .new) := by
  rw [convertOpcode_future cpu addr head fresh .new shape]
  exact converted_bare shape rfl (by decide) rfl rfl rfl

include fits in
theorem number_kept (base : kind.getType = .PanBase) : (head.size.setWidth 16).setWidth 32 = head.size := by
  have small := fits.size
  rw [base] at small
  change _ < 2 ^ 16 at small
  apply BitVec.eq_of_toNat_eq
  rw [BitVec.toNat_setWidth, BitVec.toNat_setWidth, Nat.mod_eq_of_lt (by omega), Nat.mod_eq_of_lt small]

include fits in
theorem converted_numbered (shape : kind.shape = .numbered) :
    Converted cpu addr fresh kind head (cpu.convertOpcode addr head fresh kind .new) := by
  have base := shape_base (.inl shape)
  rw [convertOpcode_numbered cpu addr head fresh .new shape, buildNumbered_eq _ _ _ base,
    number_kept fits base]
  exact converted_bare shape rfl (by decide) rfl rfl rfl

include board in
theorem converted_revoke : Converted cpu addr fresh .Revoke head
    (cpu.convertOpcode addr head fresh .Revoke .new) := by
  have ⟨mem, wrote, _⟩ := writeWord_completion board 1
  rw [PanCPU.convertOpcode, PanCPU.convertRevoke, wrote, ok_bind]
  exact converted_bare rfl rfl (by decide) rfl rfl rfl

include board mapped in
theorem converted_addressed (shape : kind.shape = .addressed) :
    Converted cpu addr fresh kind head (cpu.convertOpcode addr head fresh kind .new) := by
  have asks : kind.shape.readsAddr = true := congrArg Shape.readsAddr shape
  have ⟨read, _⟩ := readSecond board mapped fresh asks
  rw [convertOpcode_addressed cpu addr head fresh shape, PanCPU.convertAddr, read, ok_bind]
  exact converted_bare shape rfl (by decide) rfl rfl rfl

include board mapped fits in
theorem converted_readReg (shape : kind.shape = .readReg) :
    Converted cpu addr fresh kind head (cpu.convertOpcode addr head fresh kind .new) := by
  have named : kind = .ReadReg := shape_only (congrArg Shape.only shape)
  have asks : kind.shape.readsAddr = true := congrArg Shape.readsAddr shape
  have ⟨read, _⟩ := readSecond board mapped fresh asks
  have base := shape_base (.inr (.inl shape))
  subst named
  rw [PanCPU.convertOpcode, PanCPU.convertAddr, read, ok_bind]
  dsimp only
  rw [PanNicEvent.buildReadReg, buildNumbered_eq _ _ _ base, number_kept fits base]
  exact converted_bare rfl rfl (by decide) rfl rfl rfl

include board mapped fits in
theorem converted_writeReg (shape : kind.shape = .writeReg) :
    Converted cpu addr fresh kind head (cpu.convertOpcode addr head fresh kind .new) := by
  have named : kind = .WriteReg := shape_only (congrArg Shape.only shape)
  subst named
  have ⟨read, _⟩ := readSecond board mapped fresh rfl
  have ⟨readData, _⟩ := readThird board mapped fresh rfl rfl
  have base := shape_base (.inr (.inr shape))
  rw [PanCPU.convertOpcode, PanCPU.convertWriteReg, read, ok_bind]
  dsimp only
  rw [readData, ok_bind]
  dsimp only
  rw [PanNicEvent.buildWriteReg, buildNumbered_eq _ _ _ base, number_kept fits base]
  exact converted_ok trivial ⟨rfl, rfl, rfl, rfl, rfl, rfl, rfl, rfl⟩ (List.append_nil _).symm

include fits in
theorem buildGet_fits (word : BitVec 64) : PanNicEvent.new.buildGet head.token head.tag kind word head.size =
    { PanNicEvent.new with
      opcode := kind, token := head.token, tag := head.tag, size := head.size, addr := word } := by
  have sized : head.size.toNat <
      2 ^ (PanNicEvent.new.buildHead head.token head.tag kind).opcode.getType.width := fits.size
  have set := setSize_fits sized
  exact congrArg (fun event : PanNicEvent => event.setAddr word) set

include board mapped fits in
theorem converted_get (shape : kind.shape = .get) :
    Converted cpu addr fresh kind head (cpu.convertOpcode addr head fresh kind .new) := by
  have asks : kind.shape.readsAddr = true := congrArg Shape.readsAddr shape
  have has : kind.shape.hasThird = true := congrArg Shape.hasThird shape
  have ⟨read, _⟩ := readSecond board mapped fresh asks
  have ⟨readData, _⟩ := readThird board mapped fresh asks has
  rw [convertOpcode_get cpu addr head fresh .new shape, PanCPU.convertGet, read, ok_bind]
  dsimp only
  rw [readData, ok_bind]
  dsimp only
  rw [buildGet_fits fits]
  refine converted_ok ?_ ⟨rfl, rfl, rfl, rfl, ?_, ?_, (if_pos asks).symm, ?_⟩ ?_
  · rw [DataReadable, shape]
    trivial
  · rw [shape]
    rfl
  · rw [if_neg (notBotw (by rw [shape]; decide))]
    rfl
  · rw [DataBuilt, shape]
    rfl
  · rw [getsBuilt, if_pos shape]

include board mapped fits in
theorem converted_put (shape : kind.shape = .put) :
    Converted cpu addr fresh kind head (cpu.convertOpcode addr head fresh kind .new) := by
  have asks : kind.shape.readsAddr = true := congrArg Shape.readsAddr shape
  have has : kind.shape.hasThird = true := congrArg Shape.hasThird shape
  obtain ⟨read, _⟩ := readSecond board mapped fresh asks
  obtain ⟨readData, unseen⟩ := readThird board mapped fresh asks has
  have words := board.of_unseen unseen
  rw [convertOpcode_put cpu addr head fresh .new shape, PanCPU.convertPut, read, ok_bind]
  dsimp only
  rw [readData, ok_bind]
  dsimp only
  rw [PanCPU.readBytes]
  dsimp only
  constructor
  · intro readable
    rw [DataReadable, shape] at readable
    obtain ⟨data, readBytes, loaded, _⟩ := readMemOld_leaves words.sized words.coherent words.cached
      head.size.isLt readable (fresh 3)
    rw [readBytes]
    refine ⟨_, _, rfl, ?_, ?_⟩
    · rw [PanNicEvent.buildPut, buildGet_fits fits, setData_empty rfl]
      refine ⟨rfl, rfl, rfl, rfl, ?_, ?_, (if_pos asks).symm, ?_⟩
      · rw [shape]
        rfl
      · rw [if_neg (notBotw (by rw [shape]; decide))]
        rfl
      · rw [DataBuilt, shape]
        constructor
        · simp
        · intro index inside
          have bound : index < 8 * getNumBlocks head.size := by
            rw [getNumBlocks_eq]
            omega
          exact (bufferOf_words data bound).trans (loaded index inside)
    · rw [getsBuilt, shape]
      exact (List.append_nil _).symm
  · intro unreadable
    rw [DataReadable, shape] at unreadable
    obtain ⟨fault, readBytes⟩ := readMemOld_unreadable unreadable (fresh 3)
    rw [readBytes]
    exact ⟨_, rfl⟩

include board mapped fits in
theorem converted_botw (shape : kind.shape = .botw) :
    Converted cpu addr fresh kind head (cpu.convertOpcode addr head fresh kind .new) := by
  have named : kind = .BOTW := shape_only (congrArg Shape.only shape)
  subst named
  rw [PanCPU.convertOpcode, PanCPU.convertBOTW, PanCPU.readBytes, second_toNat board mapped]
  constructor
  · intro readable
    rw [DataReadable, shape] at readable
    obtain ⟨data, readBytes⟩ := readMemOld_readable readable (fresh 3)
    rw [readBytes]
    refine ⟨_, _, rfl, ?_, (List.append_nil _).symm⟩
    rw [PanNicEvent.buildBOTW, setData_empty rfl]
    refine ⟨rfl, rfl, rfl, rfl, rfl, ?_, rfl, ?_⟩
    · exact mask_fits (by decide) fits.offset
    · rw [DataBuilt, shape]
      simp
  · intro unreadable
    rw [DataReadable, shape] at unreadable
    obtain ⟨fault, readBytes⟩ := readMemOld_unreadable unreadable (fresh 3)
    rw [readBytes]
    exact ⟨_, rfl⟩

include board mapped fits in
theorem convertOpcode_converted :
    Converted cpu addr fresh kind head (cpu.convertOpcode addr head fresh kind .new) := by
  cases shape : kind.shape with
  | get => exact converted_get board fits mapped shape
  | put => exact converted_put board fits mapped shape
  | numbered => exact converted_numbered fits shape
  | plain => exact converted_plain shape
  | revoke =>
    have named : kind = .Revoke := shape_only (congrArg Shape.only shape)
    subst named
    exact converted_revoke board
  | addressed => exact converted_addressed board mapped shape
  | readReg => exact converted_readReg board fits mapped shape
  | writeReg => exact converted_writeReg board fits mapped shape
  | future => exact converted_future shape
  | botw => exact converted_botw board fits mapped shape
  | reserved =>
    have named : kind = .PanRsvd := shape_only (congrArg Shape.only shape)
    exact absurd named fits.known

end Ends

end Events
section Commands
variable {cpu after : PanCPU} {addr : BitVec 64} {fresh : Nat → Buffer} {command : Command}

/-- A command in memory, with the words that its opcode has. -/
structure LaidOut (mem : RevMem) (addr : BitVec 64) (command : Command) : Prop where
  mapped : Mapped mem addr command.opcode.shape
  head : wordAt (byteAt mem) addr.toNat = command.encode
  second : command.opcode.shape.hasAddr = true → wordAt (byteAt mem) (addr.toNat + 8) = command.addr
  third : command.opcode.shape.hasThird = true → wordAt (byteAt mem) (addr.toNat + 16) = command.third
  args : command.opcode = .BOTW → ∀ index < command.varArgs.toNat,
    wordAt (byteAt mem) (addr.toNat + 8 + 8 * index) = command.args index

/-- The data of the command: the bytes that a put points to, or the words behind the first one. -/
def DataOf (flat : Nat → Byte) (command : Command) (data : List (BitVec 64)) : Prop :=
  match command.opcode.shape with
  | .put => data.length = getNumBlocks command.size ∧
      ∀ index < command.size.toNat, bufferOf data index = flat (command.third.toNat + index)
  | .writeReg => data = [command.third]
  | .botw => data = (List.range command.varArgs.toNat).map command.args
  | _ => data = []

structure Matches (flat : Nat → Byte) (command : Command) (event : PanNicEvent) : Prop where
  opcode : event.opcode = command.opcode
  token : event.token = command.token
  tag : event.tag = command.tag
  size : event.size = command.size
  addr : event.addr = command.addr
  offset : event.offset = command.offset
  varArgs : event.varArgs = command.varArgs
  data : DataOf flat command event.data

theorem matches_setSrc {flat : Nat → Byte} {event : PanNicEvent} {src : Int} :
    Matches flat command (event.setSrc src) ↔ Matches flat command event := by
  constructor
  · intro fields
    exact ⟨fields.opcode, fields.token, fields.tag, fields.size, fields.addr, fields.offset,
      fields.varArgs, fields.data⟩
  · intro fields
    exact ⟨fields.opcode, fields.token, fields.tag, fields.size, fields.addr, fields.offset,
      fields.varArgs, fields.data⟩

def Command.gets (command : Command) : List TrackGet :=
  if command.opcode.shape = .get then [⟨command.tag, command.third, command.size⟩] else []

/-- The command becomes an event with its fields, and a get is tracked. -/
def Converts (cpu : PanCPU) (addr : BitVec 64) (fresh : Nat → Buffer) (command : Command) : Prop :=
  ∃ event after, cpu.panConvertRDMAtoEvent addr .new fresh = .ok (event, after) ∧
    Matches (byteAt cpu.mem) command event ∧ after.trackGets = cpu.trackGets ++ command.gets

/-- What has to hold behind the second word of a command, in the memory after its first one was read. -/
def Trailing (mem : RevMem) (place : Nat) (fresh : Nat → Buffer) (command : Command) : Prop :=
  match command.opcode.shape with
  | .get | .writeReg => Whole (byteAt mem) (place + 16) 8 (fresh 2)
  | .put =>
    let pointer := (seenThird mem place fresh).toNat
    Readable (wordsRead mem place) pointer command.size.toNat ∧ ∀ index < command.size.toNat,
      leaves (wordsRead mem place) pointer command.size.toNat (fresh 3) index =
        byteAt mem (command.third.toNat + index)
  | .botw => command.varArgs = 0 ∧ Readable mem (place + 8) 0
  | _ => True

/-- The words of the command are read whole, and a field that the conversion does not read is 0. -/
structure Faithful (cpu : PanCPU) (addr : BitVec 64) (fresh : Nat → Buffer) (command : Command) : Prop where
  head : Whole (byteAt cpu.mem) addr.toNat command.opcode.shape.headBytes (fresh 0)
  size : command.opcode.shape.hasSize = true ∨ command.size = 0
  second : if command.opcode.shape.readsAddr then Whole (byteAt cpu.mem) (addr.toNat + 8) 8 (fresh 1)
    else command.addr = 0
  behind : Trailing (afterRead cpu.mem addr.toNat 8) addr.toNat fresh command

theorem Mapped.of_unseen {mem after : RevMem} {shape : Shape} (mapped : Mapped mem addr shape)
    (unseen : Unseen mem after) : Mapped after addr shape where
  head := touchable_unseen mapped.head unseen
  second := fun asks => touchable_unseen (mapped.second asks) unseen
  third := fun has => touchable_unseen (mapped.third has) unseen

theorem getNumBlocks_none {size : BitVec 8} (none : getNumBlocks (size.setWidth 32) = 0) : size = 0 := by
  have bound := size.isLt
  rw [getNumBlocks_eq, BitVec.toNat_setWidth, Nat.mod_eq_of_lt (by omega)] at none
  exact BitVec.eq_of_toNat_eq (by change _ = 0; omega)

theorem heads_whole (fits : command.Fits) {flat : Nat → Byte} {place : Nat} (value : Buffer)
    (laid : wordAt flat place = command.encode) :
    (∃ head, decodeHeader (seenWord flat place value) = some head ∧ Heads command head) ↔
      Whole flat place command.opcode.shape.headBytes value := by
  have small : command.opcode.shape.headBytes ≤ 8 := by
    rw [Shape.headBytes]
    split_ifs <;> decide
  rw [heads_iff fits, ← loadOld_whole small, ← laid]
  constructor
  · intro same index inside
    have byte := same index inside
    rw [seenWord, wordAt, bytesOf_word64 _ _ (by omega), bytesOf_word64 _ _ (by omega)] at byte
    exact byte
  · intro same index inside
    rw [seenWord, wordAt, bytesOf_word64 _ _ (by omega), bytesOf_word64 _ _ (by omega)]
    exact same index inside

theorem faithful_matches {mem : RevMem} {head : Header} {inner : PanNicEvent}
    (laid : LaidOut cpu.mem addr command) (unseen : Unseen cpu.mem mem)
    (same : mem = afterRead cpu.mem addr.toNat 8)
    (whole : Whole (byteAt cpu.mem) addr.toNat command.opcode.shape.headBytes (fresh 0))
    (readable : DataReadable mem addr.toNat fresh command.opcode head)
    (built : EventBuilt mem addr.toNat fresh command.opcode head inner)
    (size : command.opcode.shape.hasSize = true → head.size = command.size)
    (fields : Matches (byteAt cpu.mem) command inner)
    (gets : getsBuilt mem addr.toNat fresh command.opcode head = command.gets) :
    Faithful cpu addr fresh command where
  head := whole
  size := by
    cases has : command.opcode.shape.hasSize with
    | true => exact .inl rfl
    | false =>
      have zero := built.size
      rw [has] at zero
      exact .inr (fields.size.symm.trans zero)
  second := by
    have word := built.addr
    rw [fields.addr, funext unseen.view] at word
    split_ifs with asks
    · rw [if_pos asks] at word
      have has : command.opcode.shape.hasAddr = true := by
        rw [Shape.readsAddr, Bool.and_eq_true] at asks
        exact asks.1
      exact seenWord_whole.mp (word.symm.trans (laid.second has).symm)
    · rw [if_neg asks] at word
      exact word
  behind := by
    rw [← same, Trailing]
    have third (has : command.opcode.shape.hasThird = true)
        (seen : seenThird mem addr.toNat fresh = command.third) :
        Whole (byteAt mem) (addr.toNat + 16) 8 (fresh 2) := by
      refine seenWord_whole.mp (seen.trans ?_)
      rw [funext unseen.view]
      exact (laid.third has).symm
    have data := fields.data
    have made := built.data
    rw [DataOf] at data
    rw [DataBuilt] at made
    rw [DataReadable] at readable
    cases shape : command.opcode.shape with
    | get =>
      rw [getsBuilt, Command.gets, if_pos shape, if_pos shape] at gets
      simp only [List.cons.injEq, TrackGet.mk.injEq, and_true] at gets
      exact third (congrArg Shape.hasThird shape) gets.2.1
    | put =>
      rw [shape] at data made readable
      have length := size (congrArg Shape.hasSize shape)
      rw [length] at made readable
      refine ⟨readable, ?_⟩
      intro index inside
      rw [unseen.view]
      exact (made.2 index inside).symm.trans (data.2 index inside)
    | writeReg =>
      rw [shape] at data made
      refine third (congrArg Shape.hasThird shape) ?_
      exact List.singleton_injective (made.symm.trans data)
    | botw =>
      rw [shape] at data made readable
      have none : command.varArgs = 0 := fields.varArgs.symm.trans built.varArgs
      dsimp only at data made readable
      rw [data, none, List.length_map, List.length_range] at made
      have zero := getNumBlocks_none made.symm
      rw [zero] at readable
      exact ⟨none, readable⟩
    | numbered | plain | revoke | addressed | readReg | future | reserved => trivial

theorem trailing_readable {mem : RevMem} {place : Nat} {head : Header} (heads : Heads command head)
    (behind : Trailing mem place fresh command) : DataReadable mem place fresh command.opcode head := by
  rw [Trailing] at behind
  rw [DataReadable]
  cases shape : command.opcode.shape with
  | put =>
    rw [shape] at behind
    rw [heads.size (congrArg Shape.hasSize shape)]
    exact behind.1
  | botw =>
    have named : command.opcode = .BOTW := shape_only (congrArg Shape.only shape)
    rw [shape] at behind
    dsimp only at behind ⊢
    rw [(heads.words named).1, behind.1]
    exact behind.2
  | get | numbered | plain | revoke | addressed | readReg | writeReg | future | reserved => trivial

theorem third_seen {mem : RevMem} (laid : LaidOut cpu.mem addr command) (unseen : Unseen cpu.mem mem)
    (has : command.opcode.shape.hasThird = true)
    (whole : Whole (byteAt mem) (addr.toNat + 16) 8 (fresh 2)) :
    seenThird mem addr.toNat fresh = command.third := by
  refine (seenWord_whole.mpr whole).trans ?_
  rw [funext unseen.view]
  exact laid.third has

theorem matches_faithful {mem : RevMem} {head : Header} {inner : PanNicEvent} (fits : command.Fits)
    (laid : LaidOut cpu.mem addr command) (unseen : Unseen cpu.mem mem)
    (same : mem = afterRead cpu.mem addr.toNat 8) (heads : Heads command head)
    (faithful : Faithful cpu addr fresh command)
    (built : EventBuilt mem addr.toNat fresh command.opcode head inner) :
    Matches (byteAt cpu.mem) command inner where
  opcode := built.opcode
  token := built.token.trans heads.token
  tag := built.tag.trans heads.tag
  size := by
    have size := built.size
    split_ifs at size with has
    · exact size.trans (heads.size has)
    · rcases faithful.size with sized | zero
      · exact absurd sized has
      · rw [size, zero]
  addr := by
    have word := built.addr
    have second := faithful.second
    rw [funext unseen.view] at word
    split_ifs at word second with asks
    · have has : command.opcode.shape.hasAddr = true := by
        rw [Shape.readsAddr, Bool.and_eq_true] at asks
        exact asks.1
      exact word.trans ((seenWord_whole.mpr second).trans (laid.second has))
    · rw [word, second]
  offset := by
    have offset := built.offset
    have words := fits.words
    split_ifs at offset words with botw
    · exact offset.trans (heads.words botw).2
    · rw [offset, words.2]
  varArgs := by
    have words := fits.words
    split_ifs at words with botw
    · have behind := faithful.behind
      rw [Trailing, botw] at behind
      rw [built.varArgs, behind.1]
    · rw [built.varArgs, words.1]
  data := by
    have behind := faithful.behind
    have made := built.data
    rw [← same, Trailing] at behind
    rw [DataBuilt] at made
    rw [DataOf]
    cases shape : command.opcode.shape with
    | put =>
      rw [shape] at behind made
      rw [heads.size (congrArg Shape.hasSize shape)] at made
      refine ⟨made.1, ?_⟩
      intro index inside
      have byte := behind.2 index inside
      rw [unseen.view] at byte
      exact (made.2 index inside).trans byte
    | writeReg =>
      rw [shape] at behind made
      have third := third_seen laid unseen (congrArg Shape.hasThird shape) behind
      dsimp only at made ⊢
      rw [made, third]
    | botw =>
      have named : command.opcode = .BOTW := shape_only (congrArg Shape.only shape)
      rw [shape] at behind made
      dsimp only at behind made ⊢
      rw [(heads.words named).1, behind.1] at made
      rw [behind.1]
      exact List.eq_nil_of_length_eq_zero made
    | get | numbered | plain | revoke | addressed | readReg | future | reserved =>
      rw [shape] at made
      exact made

theorem gets_faithful {mem : RevMem} {head : Header} (laid : LaidOut cpu.mem addr command)
    (unseen : Unseen cpu.mem mem) (heads : Heads command head)
    (behind : Trailing mem addr.toNat fresh command) :
    getsBuilt mem addr.toNat fresh command.opcode head = command.gets := by
  rw [getsBuilt, Command.gets]
  split_ifs with shape
  · rw [Trailing, shape] at behind
    have third := third_seen laid unseen (congrArg Shape.hasThird shape) behind
    rw [third, heads.tag, heads.size (congrArg Shape.hasSize shape)]
  · rfl

/-- The fields of the first word, where the event that is made of them matches the command. -/
theorem heads_matches {mem : RevMem} {place : Nat} {head : Header} {inner : PanNicEvent} {flat : Nat → Byte}
    (found : PanOpcode.ofCode head.code = some command.opcode)
    (built : EventBuilt mem place fresh command.opcode head inner) (fields : Matches flat command inner) :
    Heads command head where
  code := (code_ofCode found).symm
  token := built.token.symm.trans fields.token
  tag := built.tag.symm.trans fields.tag
  size := by
    intro has
    have size := built.size
    rw [if_pos has] at size
    exact size.symm.trans fields.size
  words := by
    intro botw
    have none : command.varArgs = 0 := fields.varArgs.symm.trans built.varArgs
    have data := fields.data
    have made := built.data
    have offset := built.offset
    rw [DataOf, botw] at data
    rw [DataBuilt, botw] at made
    dsimp only [PanOpcode.shape] at data made
    rw [if_pos botw] at offset
    rw [data, none, List.length_map, List.length_range] at made
    rw [getNumBlocks_none made.symm, none]
    exact ⟨rfl, offset.symm.trans fields.offset⟩

theorem faithful_of_converts (board : PanMem cpu.mem) (fits : command.Fits)
    (laid : LaidOut cpu.mem addr command) (converts : Converts cpu addr fresh command) :
    Faithful cpu addr fresh command := by
  have ⟨read, unseen⟩ := readWord_seen cpu board laid.mapped.head (fresh 0)
  have after := board.of_unseen unseen
  rcases converts with ⟨event, last, converted, fields, gets⟩
  have ⟨_, _, head, kind, inner, readAgain, decoded, found, switched, sourced⟩ := panConvert_inv converted
  cases read.symm.trans readAgain
  rw [sourced] at fields
  have fields := matches_setSrc.mp fields
  have same : kind = command.opcode := (convertOpcode_ok after switched).1.symm.trans fields.opcode
  subst same
  have ends : Converted { cpu with mem := afterRead cpu.mem addr.toNat 8 } addr fresh command.opcode
      head _ := convertOpcode_converted after (decodeHeader_fits decoded found)
    (laid.mapped.of_unseen unseen)
  by_cases readable : DataReadable (afterRead cpu.mem addr.toNat 8) addr.toNat fresh command.opcode head
  · have ⟨_, _, returned, built, added⟩ := ends.1 readable
    rw [returned] at switched
    cases switched
    have carried := heads_matches found built fields
    have whole := (heads_whole fits (fresh 0) laid.head).mp ⟨head, decoded, carried⟩
    exact faithful_matches laid unseen rfl whole readable built carried.size fields
      (List.append_cancel_left (added.symm.trans gets))
  · have ⟨fault, faulted⟩ := ends.2 readable
    rw [faulted] at switched
    cases switched

theorem converts_of_faithful (board : PanMem cpu.mem) (fits : command.Fits)
    (laid : LaidOut cpu.mem addr command) (faithful : Faithful cpu addr fresh command) :
    Converts cpu addr fresh command := by
  have ⟨read, unseen⟩ := readWord_seen cpu board laid.mapped.head (fresh 0)
  have after := board.of_unseen unseen
  have ⟨head, decoded, carried⟩ := (heads_whole fits (fresh 0) laid.head).mpr faithful.head
  have found : PanOpcode.ofCode head.code = some command.opcode := by
    rw [carried.code]
    exact ofCode_code fits.opcode
  have ends : Converted { cpu with mem := afterRead cpu.mem addr.toNat 8 } addr fresh command.opcode
      head _ := convertOpcode_converted after (decodeHeader_fits decoded found)
    (laid.mapped.of_unseen unseen)
  have ⟨inner, last, returned, built, added⟩ := ends.1 (trailing_readable carried faithful.behind)
  rw [Converts, PanCPU.panConvertRDMAtoEvent, read, ok_bind]
  dsimp only
  rw [decoded]
  dsimp only
  rw [found]
  dsimp only
  rw [returned, ok_bind]
  refine ⟨_, last, rfl, ?_, ?_⟩
  · exact matches_setSrc.mpr (matches_faithful fits laid unseen rfl carried faithful built)
  · rw [added, gets_faithful laid unseen carried faithful.behind]

/-- A command in memory is converted into an event with its fields exactly where its words are read whole and
the fields that the conversion leaves out are 0. -/
theorem converts_iff (board : PanMem cpu.mem) (fits : command.Fits) (laid : LaidOut cpu.mem addr command)
    (fresh : Nat → Buffer) : Converts cpu addr fresh command ↔ Faithful cpu addr fresh command :=
  ⟨faithful_of_converts board fits laid, converts_of_faithful board fits laid⟩

end Commands

section Examples
variable {addr : BitVec 64} {fresh : Nat → Buffer} {command : Command}

def commandBytes (command : Command) : Buffer := fun index =>
  if index < 8 then bytesOf command.encode index
  else if index < 16 then bytesOf command.addr (index - 8)
  else bytesOf command.third (index - 16)

theorem stored_laid (other : command.opcode ≠ .BOTW) :
    ∃ mem, freshPan.writeMem 0 rdmaMailbox 24 (commandBytes command) = .ok mem ∧ PanMem mem ∧
      LaidOut mem (BitVec.ofNat 64 rdmaMailbox) command := by
  have board := freshPan_mem
  have usable : Usable freshPan (slotAddr 0) 24 := board.usable (by decide) 24 (Nat.le_refl 24)
  have ⟨mem, written, coherent, same, stored⟩ := writeMem_valid usable (commandBytes command)
  have place : (BitVec.ofNat 64 rdmaMailbox).toNat = rdmaMailbox := by decide
  have byte (index : Nat) (inside : index < 24) :
      byteAt mem (rdmaMailbox + index) = commandBytes command index := by
    have first : slotAddr 0 = rdmaMailbox := rfl
    rw [stored, first, flatStore, if_pos (by omega), Nat.add_sub_cancel_left]
  have word (start : Nat) (value : BitVec 64) (inside : start + 8 ≤ 24)
      (held : ∀ index < 8, commandBytes command (start + index) = bytesOf value index) :
      wordAt (byteAt mem) (rdmaMailbox + start) = value := by
    have read : wordAt (byteAt mem) (rdmaMailbox + start) = word64 (bytesOf value) := by
      apply word64_congr
      intro index small
      rw [Nat.add_assoc, byte _ (by omega), held index small]
    rw [read, LoadStore.word64_bytesOf, BitVec.setWidth_eq]
  have touchable (start : Nat) (inside : start ≤ 16) : Touchable mem (rdmaMailbox + start) 8 := by
    constructor
    · rw [isValidVirtAddr_layout same]
      refine valid_freshPan ((valid_freshMailbox _).mpr (.inl ?_))
      unfold rdmaMailbox rdmaMaxEntries
      omega
    · intro crossing
      have page : (rdmaMailbox + start) % pageSize = 8 + start := by
        unfold rdmaMailbox pageSize
        omega
      rw [page] at crossing
      unfold pageSize at crossing
      omega
  refine ⟨mem, written, ⟨board.toBoard.of_layout coherent same, ?_⟩, ?_⟩
  · rw [isValidVirtAddr_layout same]
    exact board.completion
  · constructor
    · constructor
      · rw [place]
        exact touchable 0 (by decide)
      · rw [place]
        exact fun _ => touchable 8 (by decide)
      · rw [place]
        exact fun _ => touchable 16 (by decide)
    · rw [place]
      refine word 0 command.encode (by decide) ?_
      intro index small
      rw [Nat.zero_add, commandBytes, if_pos small]
    · rw [place]
      refine fun _ => word 8 command.addr (by decide) ?_
      intro index small
      rw [commandBytes, if_neg (by omega), if_pos (by omega), Nat.add_sub_cancel_left]
    · rw [place]
      refine fun _ => word 16 command.third (by decide) ?_
      intro index small
      rw [commandBytes, if_neg (by omega), if_neg (by omega), Nat.add_sub_cancel_left]
    · exact fun botw => absurd botw other

theorem future_not_converted {cpu : PanCPU} (board : PanMem cpu.mem) (future : command.opcode.shape = .future)
    (addressed : command.addr ≠ 0) : ¬ Converts cpu addr fresh command := by
  rintro ⟨event, last, converted, fields, _⟩
  have ⟨_, _, head, kind, inner, read, _, _, switched, sourced⟩ := panConvert_inv converted
  have after := board.of_beside (readWord_beside board read)
  rw [sourced] at fields
  have fields := matches_setSrc.mp fields
  have same : kind = command.opcode := (convertOpcode_ok after switched).1.symm.trans fields.opcode
  subst same
  rw [convertOpcode_future _ _ _ _ _ future] at switched
  cases switched
  exact addressed fields.addr.symm

def revokeEight : Command := ⟨.RevokeFuture, 7, 1, 0, 0, 0, 8, 0, fun _ => 0⟩

theorem revokeFuture_loses_addr : revokeEight.Fits ∧
    ∃ mem, freshPan.writeMem 0 rdmaMailbox 24 (commandBytes revokeEight) = .ok mem ∧
      LaidOut mem (BitVec.ofNat 64 rdmaMailbox) revokeEight ∧
      ¬ Converts (hostWith mem) (BitVec.ofNat 64 rdmaMailbox) (fun _ _ => 0) revokeEight := by
  refine ⟨⟨by decide, by decide, by decide⟩, ?_⟩
  have ⟨mem, written, board, laid⟩ := stored_laid (show revokeEight.opcode ≠ .BOTW by decide)
  have same : (hostWith mem).mem = mem := rfl
  rw [← same] at board
  exact ⟨mem, written, laid, future_not_converted board rfl (by decide)⟩

def getFour : Command := ⟨.SyncGet, 7, 1, 0, 4, 0, 16, 32, fun _ => 0⟩

theorem converts_getFour : ∃ mem, freshPan.writeMem 0 rdmaMailbox 24 (commandBytes getFour) = .ok mem ∧
    Converts (hostWith mem) (BitVec.ofNat 64 rdmaMailbox) (fun _ _ => 0) getFour := by
  have ⟨mem, written, board, laid⟩ := stored_laid (show getFour.opcode ≠ .BOTW by decide)
  have same : (hostWith mem).mem = mem := rfl
  rw [← same] at board laid
  have fits : getFour.Fits := ⟨by decide, by decide, by decide⟩
  refine ⟨mem, written, (converts_iff board fits laid fun _ _ => 0).mpr ?_⟩
  have rest (start : Nat) (small : start ≤ 16) (flat : Nat → Byte) (value : Buffer) :
      Whole flat (rdmaMailbox + start) 8 value := by
    intro index inside behind
    have page : (rdmaMailbox + start) % pageSize = 8 + start := by
      unfold rdmaMailbox pageSize
      omega
    rw [pageRest, page] at behind
    unfold pageSize at behind
    omega
  exact ⟨rest 0 (by decide) _ _, .inl rfl, rest 8 (by decide) _ _, rest 16 (by decide) _ _⟩

end Examples
end RevCPU.Pan
