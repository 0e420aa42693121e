import RevCPU.PanMailbox
import RevCPU.PanSignal
/-!
Commands as a program lays them out in its memory: what each opcode takes, and the first word, which holds the
fields in three ways.
-/
namespace RevCPU.Pan
open Mem RegFile

/-- What the conversion of a command reads behind its first word, and what it leaves alone. -/
inductive Shape where
  | get | put | numbered | plain | revoke | addressed | readReg | writeReg | future | botw | reserved
deriving DecidableEq

namespace Shape

/-- The builder takes the size of the first word. -/
def hasSize : Shape → Bool
  | get | put | numbered | readReg | writeReg => true
  | _ => false

/-- A command of the shape has an address behind the first word; `readsAddr` where that is read. -/
def hasAddr : Shape → Bool
  | get | put | addressed | readReg | writeReg | future => true
  | _ => false

def readsAddr (shape : Shape) : Bool := shape.hasAddr && shape != future

def hasThird : Shape → Bool
  | get | put | writeReg => true
  | _ => false

/-- The bytes of the first word that are used. -/
def headBytes (shape : Shape) : Nat := if shape.hasSize || shape == botw then 8 else 6

end Shape

def PanOpcode.shape : PanOpcode → Shape
  | SyncGet | AsyncGet | SyncStreamGet | AsyncStreamGet => .get
  | SyncPut | AsyncPut | SyncStreamPut | AsyncStreamPut => .put
  | Status | Cancel | Halt | SingleStep => .numbered
  | Reserve | Resume | Success | Failed => .plain
  | Revoke => .revoke
  | Exec | SetFuture => .addressed
  | ReadReg => .readReg
  | WriteReg => .writeReg
  | RevokeFuture | StatusFuture => .future
  | BOTW => .botw
  | PanRsvd => .reserved

/-- The bits that a packet has for its size. -/
def PanPacket.width : PanPacket → Nat
  | PanBase => 16
  | PanStream => 20
  | PanRsvd | PanBOTW => 0

structure Command where
  opcode : PanOpcode
  token : BitVec 32
  tag : BitVec 8
  varArgs : BitVec 8
  size : BitVec 32
  offset : BitVec 32
  addr : BitVec 64
  third : BitVec 64
  args : Nat → BitVec 64

namespace Command
variable (command : Command)

structure Fits : Prop where
  opcode : command.opcode ≠ .PanRsvd
  size : command.size.toNat < 2 ^ command.opcode.getType.width
  words : if command.opcode = .BOTW then command.varArgs.toNat < 2 ^ 4 ∧ command.offset.toNat < 2 ^ 18
    else command.varArgs = 0 ∧ command.offset = 0

def encode : BitVec 64 :=
  let rest := command.token.toNat + command.tag.toNat * 2 ^ 32 + command.opcode.code.toNat * 2 ^ 40
  BitVec.ofNat 64 (match command.opcode.getType with
    | .PanBase => rest + command.size.toNat * 2 ^ 48
    | .PanStream => rest + command.size.toNat * 2 ^ 44
    | _ => rest + command.varArgs.toNat * 2 ^ 42 + command.offset.toNat * 2 ^ 46)

end Command

section Header
variable {payload : BitVec 64} {head : Header} {command : Command}

theorem ofCode_code {opcode : PanOpcode} (known : opcode ≠ .PanRsvd) :
    PanOpcode.ofCode opcode.code = some opcode := by
  cases opcode
  case PanRsvd => exact absurd rfl known
  all_goals rfl

theorem code_ofCode {opcode : PanOpcode} {code : BitVec 8} (found : PanOpcode.ofCode code = some opcode) :
    opcode.code = code := by
  rw [PanOpcode.ofCode] at found
  have same := List.find?_some found
  exact beq_iff_eq.mp same

theorem field_toNat (payload : BitVec 64) (shift width w : Nat) (fits : width ≤ w) (small : width < 64) :
    (((payload >>> shift) &&& BitVec.ofNat 64 (2 ^ width - 1)).setWidth w).toNat =
      payload.toNat / 2 ^ shift % 2 ^ width := by
  have power : 2 ^ width < 2 ^ 64 := Nat.pow_lt_pow_right (by decide) small
  have room : 2 ^ width ≤ 2 ^ w := Nat.pow_le_pow_right (by decide) fits
  have mask : (BitVec.ofNat 64 (2 ^ width - 1)).toNat = 2 ^ width - 1 := by
    rw [BitVec.toNat_ofNat, Nat.mod_eq_of_lt (by omega)]
  rw [BitVec.toNat_setWidth, BitVec.toNat_and, BitVec.toNat_ushiftRight, Nat.shiftRight_eq_div_pow, mask,
    Nat.and_two_pow_sub_one_eq_mod]
  exact Nat.mod_eq_of_lt ((Nat.mod_lt _ (Nat.two_pow_pos width)).trans_le room)

theorem decodeHeader_some (decoded : decodeHeader payload = some head) :
    head.token.toNat = payload.toNat % 2 ^ 32 ∧ head.tag.toNat = payload.toNat / 2 ^ 32 % 2 ^ 8 ∧
    ((payload.toNat / 2 ^ 40 % 4 = 0 ∧ head.code.toNat = payload.toNat / 2 ^ 40 % 2 ^ 8 ∧
        head.size.toNat = payload.toNat / 2 ^ 48 ∧ head.varArgs = 0 ∧ head.offset = 0) ∨
      (payload.toNat / 2 ^ 40 % 4 = 1 ∧ head.code.toNat = payload.toNat / 2 ^ 40 % 2 ^ 4 ∧
        head.size.toNat = payload.toNat / 2 ^ 44 ∧ head.varArgs = 0 ∧ head.offset = 0) ∨
      (payload.toNat / 2 ^ 40 % 4 = 3 ∧ head.code.toNat = 3 ∧ head.size = 0 ∧
        head.varArgs.toNat = payload.toNat / 2 ^ 42 % 2 ^ 4 ∧
        head.offset.toNat = payload.toNat / 2 ^ 46)) := by
  have bound := payload.isLt
  have type : (((payload >>> 40) &&& 0b11).setWidth 8).toNat = payload.toNat / 2 ^ 40 % 2 ^ 2 :=
    field_toNat payload 40 2 8 (by decide) (by decide)
  have token : ((payload &&& 0xffffffff).setWidth 32).toNat = payload.toNat % 2 ^ 32 := by
    have field := field_toNat payload 0 32 32 (by decide) (by decide)
    rw [BitVec.ushiftRight_zero, pow_zero, Nat.div_one] at field
    exact field
  have tag : (((payload >>> 32) &&& 0b11111111).setWidth 8).toNat = payload.toNat / 2 ^ 32 % 2 ^ 8 :=
    field_toNat payload 32 8 8 (by decide) (by decide)
  rw [decodeHeader] at decoded
  split_ifs at decoded with base stream botw
  · cases decoded
    refine ⟨token, tag, .inl ⟨?_, ?_, ?_, rfl, rfl⟩⟩
    · exact type.symm.trans (congrArg BitVec.toNat base)
    · exact field_toNat payload 40 8 8 (by decide) (by decide)
    · have size := field_toNat payload 48 16 32 (by decide) (by decide)
      refine size.trans (Nat.mod_eq_of_lt ?_)
      omega
  · cases decoded
    refine ⟨token, tag, .inr (.inl ⟨?_, ?_, ?_, rfl, rfl⟩)⟩
    · exact type.symm.trans (congrArg BitVec.toNat stream)
    · exact field_toNat payload 40 4 8 (by decide) (by decide)
    · have size := field_toNat payload 44 20 32 (by decide) (by decide)
      refine size.trans (Nat.mod_eq_of_lt ?_)
      omega
  · cases decoded
    refine ⟨token, tag, .inr (.inr ⟨?_, ?_, rfl, ?_, ?_⟩)⟩
    · exact type.symm.trans (congrArg BitVec.toNat botw)
    · exact congrArg BitVec.toNat botw
    · exact field_toNat payload 42 4 8 (by decide) (by decide)
    · have offset := field_toNat payload 46 18 32 (by decide) (by decide)
      refine offset.trans (Nat.mod_eq_of_lt ?_)
      omega

theorem code_type (decoded : decodeHeader payload = some head) :
    head.code.toNat % 4 = payload.toNat / 2 ^ 40 % 4 := by
  rcases (decodeHeader_some decoded).2.2 with ⟨type, code, _⟩ | ⟨type, code, _⟩ | ⟨type, code, _⟩
  · rw [code]
    exact Nat.mod_mod_of_dvd _ (by decide)
  · rw [code]
    exact Nat.mod_mod_of_dvd _ (by decide)
  · rw [code, type]

theorem base_fields (decoded : decodeHeader payload = some head) (base : head.code.toNat % 4 = 0) :
    head.code.toNat = payload.toNat / 2 ^ 40 % 2 ^ 8 ∧ head.size.toNat = payload.toNat / 2 ^ 48 := by
  have type := (code_type decoded).symm.trans base
  rcases (decodeHeader_some decoded).2.2 with ⟨_, code, size, _⟩ | ⟨other, _⟩ | ⟨other, _⟩
  · exact ⟨code, size⟩
  · cases type.symm.trans other
  · cases type.symm.trans other

theorem stream_fields (decoded : decodeHeader payload = some head) (stream : head.code.toNat % 4 = 1) :
    head.code.toNat = payload.toNat / 2 ^ 40 % 2 ^ 4 ∧ head.size.toNat = payload.toNat / 2 ^ 44 := by
  have type := (code_type decoded).symm.trans stream
  rcases (decodeHeader_some decoded).2.2 with ⟨other, _⟩ | ⟨_, code, size, _⟩ | ⟨other, _⟩
  · cases type.symm.trans other
  · exact ⟨code, size⟩
  · cases type.symm.trans other

theorem botw_fields (decoded : decodeHeader payload = some head) (botw : head.code.toNat % 4 = 3) :
    head.code.toNat = 3 ∧ head.varArgs.toNat = payload.toNat / 2 ^ 42 % 2 ^ 4 ∧
      head.offset.toNat = payload.toNat / 2 ^ 46 := by
  have type := (code_type decoded).symm.trans botw
  rcases (decodeHeader_some decoded).2.2 with ⟨other, _⟩ | ⟨other, _⟩ | ⟨_, code, _, varArgs, offset⟩
  · cases type.symm.trans other
  · cases type.symm.trans other
  · exact ⟨code, varArgs, offset⟩

theorem decodeHeader_isSome (payload : BitVec 64) (known : payload.toNat / 2 ^ 40 % 4 ≠ 2) :
    ∃ head, decodeHeader payload = some head := by
  have type : (((payload >>> 40) &&& 0b11).setWidth 8).toNat = payload.toNat / 2 ^ 40 % 2 ^ 2 :=
    field_toNat payload 40 2 8 (by decide) (by decide)
  rw [decodeHeader]
  split_ifs with base stream botw
  · exact ⟨_, rfl⟩
  · exact ⟨_, rfl⟩
  · exact ⟨_, rfl⟩
  · rw [← BitVec.toNat_inj, type] at base stream botw
    change ¬ _ = 0 at base
    change ¬ _ = 1 at stream
    change ¬ _ = 3 at botw
    omega

/-- The fields that a command gives its first word. -/
structure Heads (command : Command) (head : Header) : Prop where
  code : head.code = command.opcode.code
  token : head.token = command.token
  tag : head.tag = command.tag
  size : command.opcode.shape.hasSize = true → head.size = command.size
  words : command.opcode = .BOTW → head.varArgs = command.varArgs ∧ head.offset = command.offset

theorem base_code {opcode : PanOpcode} (base : opcode.getType = .PanBase) : opcode.code.toNat % 4 = 0 := by
  cases opcode <;> first | rfl | cases base

theorem stream_code {opcode : PanOpcode} (stream : opcode.getType = .PanStream) :
    opcode.code.toNat % 4 = 1 ∧ opcode.code.toNat < 16 ∧ opcode.shape.hasSize = true := by
  cases opcode <;> first | exact ⟨rfl, by decide, rfl⟩ | cases stream

section Digits
variable {word token tag code size args : Nat}

theorem base_word (tokenBound : token < 2 ^ 32) (tagBound : tag < 2 ^ 8) (codeBound : code < 2 ^ 8) :
    word = token + tag * 2 ^ 32 + code * 2 ^ 40 + size * 2 ^ 48 ↔
      word % 2 ^ 32 = token ∧ word / 2 ^ 32 % 2 ^ 8 = tag ∧ word / 2 ^ 40 % 2 ^ 8 = code ∧
        word / 2 ^ 48 = size := by
  constructor
  · rintro rfl
    refine ⟨?_, ?_, ?_, ?_⟩ <;> omega
  · rintro ⟨rfl, rfl, rfl, rfl⟩
    omega

theorem base_low (tokenBound : token < 2 ^ 32) (tagBound : tag < 2 ^ 8) (codeBound : code < 2 ^ 8) :
    (token + tag * 2 ^ 32 + code * 2 ^ 40 + size * 2 ^ 48) % 2 ^ 48 =
      token + tag * 2 ^ 32 + code * 2 ^ 40 := by
  rw [Nat.add_mul_mod_self_right]
  exact Nat.mod_eq_of_lt (by omega)

theorem stream_word (tokenBound : token < 2 ^ 32) (tagBound : tag < 2 ^ 8) (codeBound : code < 2 ^ 4) :
    word = token + tag * 2 ^ 32 + code * 2 ^ 40 + size * 2 ^ 44 ↔
      word % 2 ^ 32 = token ∧ word / 2 ^ 32 % 2 ^ 8 = tag ∧ word / 2 ^ 40 % 2 ^ 4 = code ∧
        word / 2 ^ 44 = size := by
  constructor
  · rintro rfl
    refine ⟨?_, ?_, ?_, ?_⟩ <;> omega
  · rintro ⟨rfl, rfl, rfl, rfl⟩
    omega

theorem botw_word (tokenBound : token < 2 ^ 32) (tagBound : tag < 2 ^ 8) (argsBound : args < 2 ^ 4) :
    word = token + tag * 2 ^ 32 + 3 * 2 ^ 40 + args * 2 ^ 42 + size * 2 ^ 46 ↔
      word % 2 ^ 32 = token ∧ word / 2 ^ 32 % 2 ^ 8 = tag ∧ word / 2 ^ 40 % 4 = 3 ∧
        word / 2 ^ 42 % 2 ^ 4 = args ∧ word / 2 ^ 46 = size := by
  constructor
  · rintro rfl
    refine ⟨?_, ?_, ?_, ?_, ?_⟩ <;> omega
  · rintro ⟨rfl, rfl, three, rfl, rfl⟩
    omega

end Digits

theorem whole_words (x y : BitVec 64) :
    x.toNat % 2 ^ (8 * 8) = y.toNat % 2 ^ (8 * 8) ↔ x.toNat = y.toNat := by
  rw [Nat.mod_eq_of_lt x.isLt, Nat.mod_eq_of_lt y.isLt]

theorem heads_base (fits : command.Fits) (base : command.opcode.getType = .PanBase) :
    (∃ head, decodeHeader payload = some head ∧ Heads command head) ↔
      payload.toNat % 2 ^ (8 * command.opcode.shape.headBytes) =
        command.encode.toNat % 2 ^ (8 * command.opcode.shape.headBytes) := by
  have notBotw : command.opcode ≠ .BOTW := by
    intro same
    rw [same] at base
    cases base
  have code := base_code base
  have codeBound := command.opcode.code.isLt
  have tokenBound := command.token.isLt
  have tagBound := command.tag.isLt
  have size : command.size.toNat < 2 ^ 16 := by
    have size := fits.size
    rw [base] at size
    exact size
  have encoded : command.encode.toNat = command.token.toNat + command.tag.toNat * 2 ^ 32 +
      command.opcode.code.toNat * 2 ^ 40 + command.size.toNat * 2 ^ 48 := by
    rw [Command.encode, base]
    dsimp only
    rw [BitVec.toNat_ofNat]
    exact Nat.mod_eq_of_lt (by omega)
  have other : (command.opcode.shape == .botw) = false := by
    cases named : command.opcode <;> first | rfl | exact absurd named notBotw
  have short (none : command.opcode.shape.hasSize = false) : command.opcode.shape.headBytes = 6 := by
    rw [Shape.headBytes, none, other]
    rfl
  have long (has : command.opcode.shape.hasSize = true) : command.opcode.shape.headBytes = 8 := by
    rw [Shape.headBytes, has]
    rfl
  constructor
  · rintro ⟨head, decoded, heads⟩
    have ⟨token, tag, _⟩ := decodeHeader_some decoded
    have ⟨coded, sized⟩ := base_fields decoded (by rw [heads.code, code])
    rw [heads.token] at token
    rw [heads.tag] at tag
    rw [heads.code] at coded
    cases has : command.opcode.shape.hasSize with
    | true =>
      rw [heads.size has] at sized
      rw [long has, whole_words, encoded]
      exact (base_word tokenBound tagBound codeBound).mpr ⟨token.symm, tag.symm, coded.symm, sized.symm⟩
    | false =>
      have split := (base_word tokenBound tagBound codeBound).mpr
        ⟨token.symm, tag.symm, coded.symm, sized.symm⟩
      rw [short has, encoded, base_low tokenBound tagBound codeBound, split]
      exact base_low tokenBound tagBound codeBound
  · intro same
    have low : payload.toNat % 2 ^ 48 = command.token.toNat + command.tag.toNat * 2 ^ 32 +
        command.opcode.code.toNat * 2 ^ 40 := by
      cases has : command.opcode.shape.hasSize with
      | true =>
        rw [long has, whole_words, encoded] at same
        rw [same]
        exact base_low tokenBound tagBound codeBound
      | false =>
        rw [short has, encoded] at same
        exact same.trans (base_low tokenBound tagBound codeBound)
    have split : payload.toNat = command.token.toNat + command.tag.toNat * 2 ^ 32 +
        command.opcode.code.toNat * 2 ^ 40 + payload.toNat / 2 ^ 48 * 2 ^ 48 := by
      rw [← low]
      omega
    have ⟨token, tag, coded, _⟩ := (base_word tokenBound tagBound codeBound).mp split
    have type : payload.toNat / 2 ^ 40 % 4 = 0 := by
      rw [← code, ← coded]
      exact (Nat.mod_mod_of_dvd _ (by decide)).symm
    have ⟨head, decoded⟩ := decodeHeader_isSome payload (by rw [type]; decide)
    have ⟨tokenSeen, tagSeen, _⟩ := decodeHeader_some decoded
    have ⟨codeSeen, sizeSeen⟩ := base_fields decoded ((code_type decoded).trans type)
    refine ⟨head, decoded, ?_, ?_, ?_, ?_, fun same => absurd same notBotw⟩
    · exact BitVec.eq_of_toNat_eq (codeSeen.trans coded)
    · exact BitVec.eq_of_toNat_eq (tokenSeen.trans token)
    · exact BitVec.eq_of_toNat_eq (tagSeen.trans tag)
    · intro has
      rw [long has, whole_words, encoded] at same
      exact BitVec.eq_of_toNat_eq (sizeSeen.trans ((base_word tokenBound tagBound codeBound).mp same).2.2.2)

theorem heads_stream (fits : command.Fits) (stream : command.opcode.getType = .PanStream) :
    (∃ head, decodeHeader payload = some head ∧ Heads command head) ↔
      payload.toNat % 2 ^ (8 * command.opcode.shape.headBytes) =
        command.encode.toNat % 2 ^ (8 * command.opcode.shape.headBytes) := by
  have ⟨code, codeBound, has⟩ := stream_code stream
  have notBotw : command.opcode ≠ .BOTW := by
    intro same
    rw [same] at stream
    cases stream
  have tokenBound := command.token.isLt
  have tagBound := command.tag.isLt
  have size : command.size.toNat < 2 ^ 20 := by
    have size := fits.size
    rw [stream] at size
    exact size
  have encoded : command.encode.toNat = command.token.toNat + command.tag.toNat * 2 ^ 32 +
      command.opcode.code.toNat * 2 ^ 40 + command.size.toNat * 2 ^ 44 := by
    rw [Command.encode, stream]
    dsimp only
    rw [BitVec.toNat_ofNat]
    exact Nat.mod_eq_of_lt (by omega)
  have bytes : command.opcode.shape.headBytes = 8 := by
    rw [Shape.headBytes, has]
    rfl
  rw [bytes, whole_words, encoded, stream_word tokenBound tagBound codeBound]
  constructor
  · rintro ⟨head, decoded, heads⟩
    have ⟨token, tag, _⟩ := decodeHeader_some decoded
    have ⟨coded, sized⟩ := stream_fields decoded (by rw [heads.code, code])
    rw [heads.token] at token
    rw [heads.tag] at tag
    rw [heads.code] at coded
    rw [heads.size has] at sized
    exact ⟨token.symm, tag.symm, coded.symm, sized.symm⟩
  · rintro ⟨token, tag, coded, sized⟩
    have type : payload.toNat / 2 ^ 40 % 4 = 1 := by
      rw [← code, ← coded]
      exact (Nat.mod_mod_of_dvd _ (by decide)).symm
    have ⟨head, decoded⟩ := decodeHeader_isSome payload (by rw [type]; decide)
    have ⟨tokenSeen, tagSeen, _⟩ := decodeHeader_some decoded
    have ⟨codeSeen, sizeSeen⟩ := stream_fields decoded ((code_type decoded).trans type)
    refine ⟨head, decoded, ?_, ?_, ?_, fun _ => ?_, fun same => absurd same notBotw⟩
    · exact BitVec.eq_of_toNat_eq (codeSeen.trans coded)
    · exact BitVec.eq_of_toNat_eq (tokenSeen.trans token)
    · exact BitVec.eq_of_toNat_eq (tagSeen.trans tag)
    · exact BitVec.eq_of_toNat_eq (sizeSeen.trans sized)

theorem heads_botw (fits : command.Fits) (botw : command.opcode = .BOTW) :
    (∃ head, decodeHeader payload = some head ∧ Heads command head) ↔
      payload.toNat % 2 ^ (8 * command.opcode.shape.headBytes) =
        command.encode.toNat % 2 ^ (8 * command.opcode.shape.headBytes) := by
  have words := fits.words
  rw [if_pos botw] at words
  have tokenBound := command.token.isLt
  have tagBound := command.tag.isLt
  have encoded : command.encode.toNat = command.token.toNat + command.tag.toNat * 2 ^ 32 +
      3 * 2 ^ 40 + command.varArgs.toNat * 2 ^ 42 + command.offset.toNat * 2 ^ 46 := by
    have code : PanOpcode.BOTW.code.toNat = 3 := rfl
    have type : PanOpcode.BOTW.getType = .PanBOTW := rfl
    rw [Command.encode, botw, type, code]
    dsimp only
    rw [BitVec.toNat_ofNat]
    exact Nat.mod_eq_of_lt (by omega)
  have bytes : command.opcode.shape.headBytes = 8 := by
    rw [botw]
    rfl
  have code : command.opcode.code.toNat = 3 := by
    rw [botw]
    rfl
  rw [bytes, whole_words, encoded, botw_word tokenBound tagBound words.1]
  constructor
  · rintro ⟨head, decoded, heads⟩
    have ⟨token, tag, _⟩ := decodeHeader_some decoded
    have ⟨coded, args, offset⟩ := botw_fields decoded (by rw [heads.code, code])
    have type := code_type decoded
    rw [heads.token] at token
    rw [heads.tag] at tag
    rw [(heads.words botw).1] at args
    rw [(heads.words botw).2] at offset
    rw [coded] at type
    exact ⟨token.symm, tag.symm, type.symm, args.symm, offset.symm⟩
  · rintro ⟨token, tag, type, args, offset⟩
    have ⟨head, decoded⟩ := decodeHeader_isSome payload (by rw [type]; decide)
    have ⟨tokenSeen, tagSeen, _⟩ := decodeHeader_some decoded
    have ⟨codeSeen, argsSeen, offsetSeen⟩ := botw_fields decoded ((code_type decoded).trans type)
    refine ⟨head, decoded, ?_, ?_, ?_, ?_, fun _ => ⟨?_, ?_⟩⟩
    · exact BitVec.eq_of_toNat_eq (codeSeen.trans code.symm)
    · exact BitVec.eq_of_toNat_eq (tokenSeen.trans token)
    · exact BitVec.eq_of_toNat_eq (tagSeen.trans tag)
    · intro has
      rw [botw] at has
      cases has
    · exact BitVec.eq_of_toNat_eq (argsSeen.trans args)
    · exact BitVec.eq_of_toNat_eq (offsetSeen.trans offset)

theorem bytes_low (x y : BitVec 64) (count : Nat) : (∀ index < count, bytesOf x index = bytesOf y index) ↔
    x.toNat % 2 ^ (8 * count) = y.toNat % 2 ^ (8 * count) := by
  have byte (z : BitVec 64) (index : Nat) :
      (bytesOf z index).toNat = z.toNat / 2 ^ (8 * index) % 2 ^ 8 := by
    rw [bytesOf, BitVec.extractLsb'_toNat, Nat.shiftRight_eq_div_pow]
  induction count with
  | zero => simp [Nat.mod_one]
  | succ count ih =>
    have power : 2 ^ (8 * (count + 1)) = 2 ^ (8 * count) * 2 ^ 8 := by
      rw [← Nat.pow_add]
      rfl
    have last : bytesOf x count = bytesOf y count ↔
        x.toNat / 2 ^ (8 * count) % 2 ^ 8 = y.toNat / 2 ^ (8 * count) % 2 ^ 8 := by
      rw [← byte, ← byte, BitVec.toNat_inj]
    refine Nat.forall_lt_succ_right.trans ((and_congr ih last).trans ?_)
    rw [power, Nat.mod_mul, Nat.mod_mul]
    constructor
    · rintro ⟨low, high⟩
      rw [low, high]
    · intro same
      have positive : 0 < 2 ^ (8 * count) := Nat.two_pow_pos _
      have low := congrArg (· % 2 ^ (8 * count)) same
      simp only [Nat.add_mul_mod_self_left, Nat.mod_mod] at low
      rw [low] at same
      exact ⟨low, Nat.eq_of_mul_eq_mul_left positive (Nat.add_left_cancel same)⟩

theorem heads_iff (fits : command.Fits) (payload : BitVec 64) :
    (∃ head, decodeHeader payload = some head ∧ Heads command head) ↔
      ∀ index < command.opcode.shape.headBytes, bytesOf payload index = bytesOf command.encode index := by
  rw [bytes_low]
  cases type : command.opcode.getType with
  | PanBase => exact heads_base fits type
  | PanStream => exact heads_stream fits type
  | PanRsvd =>
    have known := fits.opcode
    cases named : command.opcode <;> rw [named] at type known <;> first | exact absurd rfl known | cases type
  | PanBOTW =>
    refine heads_botw fits ?_
    cases named : command.opcode <;> rw [named] at type <;> first | rfl | cases type

end Header
end RevCPU.Pan
