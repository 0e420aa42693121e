import RevCPU.Lib.Division
import RevCPU.Multiply
/-!
The division instructions against the manual, and the remainder instructions against the quotients
those compute. Every quotient is right and no division traps the host. Three of the four remainders
return the dividend's register where they should not: the unsigned ones for a divisor whose top bit
is set, and the word forms copy all 64 bits of it.
-/
namespace RevCPU.Divide
open Feature InstTable IntTables Seed DecodeBase RegFile Insns Manual Isa Division
open BaseArith (BaseAgrees basePlan sext_full sextImm_full word_mask)
open WordArith (mask_word sext_word_low)
open RV32M (hostTraps hostDiv hostRem hostDivU hostRemU)
open Multiply (mulListed basePlan_mul mul_rows_wide mul_rows_narrow)

def execDiv (feature : RevFeature) (regs : RevRegFile) (inst : RevInst) : ImplFunc → Option Plan
  | .rv32m .div => RV32M.div feature regs inst
  | .rv32m .divu => RV32M.divu feature regs inst
  | .rv32m .rem => RV32M.rem feature regs inst
  | .rv32m .remu => RV32M.remu feature regs inst
  | .rv64m .divw => RV64M.divw regs inst
  | .rv64m .divuw => RV64M.divuw regs inst
  | .rv64m .remw => RV64M.remw regs inst
  | .rv64m .remuw => RV64M.remuw regs inst
  | _ => none

/-- A pair of instructions: the quotient and its remainder. -/
inductive DivOp where
  | signed | unsigned | signedWord | unsignedWord
deriving DecidableEq, Repr

def DivOp.quotient : DivOp → ROp
  | .signed => .div | .unsigned => .divu | .signedWord => .divw | .unsignedWord => .divuw

def DivOp.remainder : DivOp → ROp
  | .signed => .rem | .unsigned => .remu | .signedWord => .remw | .unsignedWord => .remuw

-- The function the tables name for an operation.
def quotientFunc : DivOp → ImplFunc
  | .signed => .rv32m .div | .unsigned => .rv32m .divu
  | .signedWord => .rv64m .divw | .unsignedWord => .rv64m .divuw

def remainderFunc : DivOp → ImplFunc
  | .signed => .rv32m .rem | .unsigned => .rv32m .remu
  | .signedWord => .rv64m .remw | .unsignedWord => .rv64m .remuw

section Host
variable {n : Nat} (lhs rhs : BitVec n)

theorem host_signed (nonzero : rhs ≠ 0) (fits : ¬(lhs = BitVec.intMin n ∧ rhs = -1)) :
    hostDiv lhs rhs = some (lhs.sdiv rhs) ∧ hostRem lhs rhs = some (lhs.srem rhs) := by
  have quiet : hostTraps lhs rhs = false := by
    rw [hostTraps, decide_eq_false nonzero, Bool.false_or, ← Bool.decide_and]
    exact decide_eq_false fits
  constructor
  · rw [hostDiv, quiet, if_neg Bool.false_ne_true]
  · rw [hostRem, quiet, if_neg Bool.false_ne_true]

theorem host_unsigned (nonzero : rhs ≠ 0) :
    hostDivU lhs rhs = some (lhs / rhs) ∧ hostRemU lhs rhs = some (lhs % rhs) :=
  ⟨if_neg nonzero, if_neg nonzero⟩

variable {β : Type} (f : BitVec n → β)

-- The cascades of special cases the functions begin with.
theorem guarded_div :
    (if rhs = 0 then some (f (BitVec.allOnes n))
      else if lhs = BitVec.intMin n ∧ rhs = -1 then some (f lhs)
      else (hostDiv lhs rhs).map f) = some (f (divS lhs rhs)) := by
  rw [divS]
  by_cases zero : rhs = 0
  · rw [if_pos zero, if_pos zero, BitVec.neg_one_eq_allOnes]
  · rw [if_neg zero, if_neg zero]
    by_cases overflow : lhs = BitVec.intMin n ∧ rhs = -1
    · have least : lhs.sdiv rhs = lhs := by
        rw [overflow.1, overflow.2]
        exact BitVec.intMin_sdiv_neg_one
      rw [if_pos overflow, least]
    · rw [if_neg overflow, (host_signed lhs rhs zero overflow).1]
      rfl

theorem guarded_rem :
    (if rhs = 0 then some (f lhs)
      else if lhs = BitVec.intMin n ∧ rhs = -1 then some (f 0)
      else (hostRem lhs rhs).map f) = some (f (remS lhs rhs)) := by
  rw [remS]
  by_cases zero : rhs = 0
  · rw [if_pos zero, if_pos zero]
  · rw [if_neg zero, if_neg zero]
    by_cases overflow : lhs = BitVec.intMin n ∧ rhs = -1
    · rw [if_pos overflow, overflow.2, srem_neg_one]
    · rw [if_neg overflow, (host_signed lhs rhs zero overflow).2]
      rfl

theorem guarded_divu :
    (if rhs = 0 then some (f (BitVec.allOnes n)) else (hostDivU lhs rhs).map f) =
      some (f (divU lhs rhs)) := by
  rw [divU]
  by_cases zero : rhs = 0
  · rw [if_pos zero, if_pos zero, BitVec.neg_one_eq_allOnes]
  · rw [if_neg zero, if_neg zero, (host_unsigned lhs rhs zero).1]
    rfl

-- The unsigned remainder with one more case in which the dividend is returned.
theorem guarded_remu (also : Prop) [Decidable also] :
    (if rhs = 0 ∨ also then some (f lhs) else (hostRemU lhs rhs).map f) =
      some (f (if rhs = 0 ∨ also then lhs else lhs % rhs)) := by
  by_cases early : rhs = 0 ∨ also
  · rw [if_pos early, if_pos early]
  · rw [if_neg early, if_neg early, (host_unsigned lhs rhs (fun zero => early (.inl zero))).2]
    rfl

end Host

section Words
variable (a : BitVec 64) (x y : BitVec 32)

-- How the word forms read an operand and write a result.
theorem tdU64_word : tdU64 (a &&& 0xFFFFFFFF) 32 = (a.setWidth 32).signExtend 64 := by
  rw [mask_word]
  exact twosComplement_setWidth (a.setWidth 32) (by decide) (by decide)

theorem dtU64_word : dtU64 (a &&& 0xFFFFFFFF) 32 = (a.setWidth 32).signExtend 64 :=
  tdU64_word a

theorem signExtend_low : (x.signExtend 64).setWidth 32 = x := by
  rw [Bits.setWidth_signExtend x (by decide), BitVec.signExtend_eq]

theorem signExtend_zero_iff : x.signExtend 64 = 0 ↔ x = 0 :=
  Bits.signExtend_inj (w := 64) x 0 (by decide)

theorem signExtend_least_iff :
    x.signExtend 64 = (BitVec.intMin 32).signExtend 64 ↔ x = BitVec.intMin 32 :=
  Bits.signExtend_inj (w := 64) x (BitVec.intMin 32) (by decide)

-- The host divides 64-bit values here, so the quotient always fits.
theorem host_words (nonzero : y ≠ 0) (fits : ¬(x = BitVec.intMin 32 ∧ y = -1)) :
    hostDiv (x.signExtend 64) (y.signExtend 64) = some ((x.sdiv y).signExtend 64) ∧
      hostRem (x.signExtend 64) (y.signExtend 64) = some ((x.srem y).signExtend 64) := by
  have short : ¬(x.signExtend 64 = BitVec.intMin 64 ∧ y.signExtend 64 = -1) := by
    rintro ⟨least, -⟩
    exact signExtend_ne_intMin x (by decide) (by decide) least
  have narrow : x ≠ BitVec.intMin 32 ∨ y ≠ -1 := by
    by_contra both
    rw [not_or, not_not, not_not] at both
    exact fits both
  rw [← sdiv_signExtend x y (by decide) (by decide) narrow, ← srem_signExtend x y (by decide)]
  exact host_signed _ _ (fun zero => nonzero ((signExtend_zero_iff y).mp zero)) short

variable {β : Type} (f : BitVec 64 → β)

theorem guarded_divw :
    (if y = 0 then some (f (BitVec.allOnes 64))
      else if x = BitVec.intMin 32 ∧ y = -1#32 then some (f (x.signExtend 64))
      else (hostDiv (x.signExtend 64) (y.signExtend 64)).map fun quotient =>
        f ((quotient.setWidth 32).signExtend 64)) = some (f ((divS x y).signExtend 64)) := by
  rw [divS]
  by_cases zero : y = 0
  · rw [if_pos zero, if_pos zero]
    rfl
  · rw [if_neg zero, if_neg zero]
    by_cases overflow : x = BitVec.intMin 32 ∧ y = -1#32
    · have least : x.sdiv y = x := by
        rw [overflow.1, overflow.2]
        exact BitVec.intMin_sdiv_neg_one
      rw [if_pos overflow, least]
    · rw [if_neg overflow, (host_words x y zero overflow).1, Option.map_some, signExtend_low]

-- For a zero divisor remw returns a copy; else the extended remainder.
theorem guarded_remw (copied : BitVec 64) :
    (if y = 0 then some (f copied)
      else if x = BitVec.intMin 32 ∧ y = -1#32 then some (f 0)
      else (hostRem (x.signExtend 64) (y.signExtend 64)).map fun remainder =>
        f ((remainder.setWidth 32).signExtend 64)) =
      some (f (if y = 0 then copied else (x.srem y).signExtend 64)) := by
  by_cases zero : y = 0
  · rw [if_pos zero, if_pos zero]
  · rw [if_neg zero, if_neg zero]
    by_cases overflow : x = BitVec.intMin 32 ∧ y = -1#32
    · have none : x.srem y = 0 := by
        rw [overflow.2]
        exact srem_neg_one x
      rw [if_pos overflow, none]
      rfl
    · rw [if_neg overflow, (host_words x y zero overflow).2, Option.map_some, signExtend_low]

theorem setWidth_zero_iff : x.setWidth 64 = 0 ↔ x = 0 :=
  Bits.setWidth_inj (w := 64) x 0 (by decide)

theorem setWidth_low : (x.setWidth 64).setWidth 32 = x := by
  rw [BitVec.setWidth_setWidth_of_le x (by decide), BitVec.setWidth_eq]

theorem guarded_divuw :
    (if y = 0 then some (f (BitVec.allOnes 64))
      else (hostDivU (x.setWidth 64) (y.setWidth 64)).map fun quotient =>
        f ((quotient.setWidth 32).signExtend 64)) = some (f ((divU x y).signExtend 64)) := by
  rw [divU]
  by_cases zero : y = 0
  · rw [if_pos zero, if_pos zero]
    rfl
  · have wide : y.setWidth 64 ≠ 0 := fun none => zero ((setWidth_zero_iff y).mp none)
    rw [if_neg zero, if_neg zero, (host_unsigned _ _ wide).1, Option.map_some,
      udiv_setWidth x y (by decide), setWidth_low]

theorem guarded_remuw (also : Prop) [Decidable also] (copied : BitVec 64) :
    (if y = 0 ∨ also then some (f copied)
      else (hostRemU (x.setWidth 64) (y.setWidth 64)).map fun remainder =>
        f ((remainder.setWidth 32).signExtend 64)) =
      some (f (if y = 0 ∨ also then copied else (x % y).signExtend 64)) := by
  by_cases early : y = 0 ∨ also
  · rw [if_pos early, if_pos early]
  · have wide : y.setWidth 64 ≠ 0 :=
      fun none => early (.inl ((setWidth_zero_iff y).mp none))
    rw [if_neg early, if_neg early, (host_unsigned _ _ wide).2, Option.map_some,
      umod_setWidth x y (by decide), setWidth_low]

end Words

section Quotients
variable (feature : RevFeature) (regs : RevRegFile) (inst : RevInst) {n : Nat}
variable (rd rs1 rs2 : BitVec 5) (size : inst.instSize = n) (dest : inst.rd = rd.setWidth 8)
variable (left : inst.rs1 = rs1.setWidth 8) (right : inst.rs2 = rs2.setWidth 8)
include size dest left right

theorem div_wide (wide : isRV32 feature = false) : RV32M.div feature regs inst =
    some (.done (retire rv64 n regs rd (rValue .div (reg rv64 regs rs1) (reg rv64 regs rs2)))) := by
  rw [← step64_retire regs inst size, ← dest]
  simp only [RV32M.div, wide, tdU64, dtU64, twosComplement_full, left, right, Bool.false_eq_true,
    if_false]
  exact guarded_div _ _ fun quotient => Plan.done ((regs.setX64 inst.rd quotient).step64 inst)

theorem div_narrow (narrow : isRV32 feature = true) : RV32M.div feature regs inst =
    some (.done (retire rv32 n regs rd (rValue .div (reg rv32 regs rs1) (reg rv32 regs rs2)))) := by
  rw [← step32_retire regs inst size, ← dest]
  simp only [RV32M.div, narrow, tdU32, dtU32, twosComplement_full, left, right, if_true]
  exact guarded_div _ _ fun quotient => Plan.done ((regs.setX32 inst.rd quotient).step32 inst)

theorem divu_wide (wide : isRV32 feature = false) : RV32M.divu feature regs inst =
    some (.done (retire rv64 n regs rd
      (rValue .divu (reg rv64 regs rs1) (reg rv64 regs rs2)))) := by
  rw [← step64_retire regs inst size, ← dest]
  simp only [RV32M.divu, wide, sext_full, left, right, Bool.false_eq_true, if_false]
  exact guarded_divu _ _ fun quotient => Plan.done ((regs.setX64 inst.rd quotient).step64 inst)

theorem divu_narrow (narrow : isRV32 feature = true) : RV32M.divu feature regs inst =
    some (.done (retire rv32 n regs rd
      (rValue .divu (reg rv32 regs rs1) (reg rv32 regs rs2)))) := by
  rw [← step32_retire regs inst size, ← dest]
  simp only [RV32M.divu, narrow, sextImm_full, left, right, if_true]
  exact guarded_divu _ _ fun quotient => Plan.done ((regs.setX32 inst.rd quotient).step32 inst)

theorem divw_wide : RV64M.divw regs inst = some (.done (retire rv64 n regs rd
    (rValue .divw (reg rv64 regs rs1) (reg rv64 regs rs2)))) := by
  rw [← step64_retire regs inst size, ← dest]
  simp only [RV64M.divw, tdU64_word, dtU64_word, left, right, signExtend_zero_iff,
    signExtend_least_iff, signExtend_low]
  exact guarded_divw _ _ fun quotient => Plan.done ((regs.setX64 inst.rd quotient).step64 inst)

theorem divuw_wide : RV64M.divuw regs inst = some (.done (retire rv64 n regs rd
    (rValue .divuw (reg rv64 regs rs1) (reg rv64 regs rs2)))) := by
  have ones : sext 0xFFFFFFFF 32 = BitVec.allOnes 64 := by decide
  rw [← step64_retire regs inst size, ← dest]
  simp only [RV64M.divuw, left, right, mask_word, setWidth_zero_iff, sext_word_low,
    RevRegFile.setX64_update _ _ _ (fun x => sext x 32), ones]
  exact guarded_divuw _ _ fun quotient => Plan.done ((regs.setX64 inst.rd quotient).step64 inst)

end Quotients

-- The test of a single bit.
theorem sign_bit (i : Nat) (inside : i < 64) (x : BitVec 64) :
    (0 : BitVec 64) < (x &&& BitVec.twoPow 64 i) >>> i ↔ x.getLsbD i = true := by
  have one : (BitVec.twoPow 64 i >>> i).toNat = 1 := by
    rw [BitVec.toNat_ushiftRight, BitVec.toNat_twoPow_of_lt inside, Nat.shiftRight_eq_div_pow,
      Nat.div_self (by positivity)]
  rw [BitVec.and_twoPow, BitVec.lt_def]
  cases x.getLsbD i with
  | false => simp
  | true => simp [one]

section Remainders
variable (feature : RevFeature) (regs : RevRegFile) (inst : RevInst) {n : Nat}
variable (rd rs1 rs2 : BitVec 5) (size : inst.instSize = n) (dest : inst.rd = rd.setWidth 8)
variable (left : inst.rs1 = rs1.setWidth 8) (right : inst.rs2 = rs2.setWidth 8)
include size dest left right

theorem rem_wide (wide : isRV32 feature = false) : RV32M.rem feature regs inst =
    some (.done (retire rv64 n regs rd (remS (reg rv64 regs rs1) (reg rv64 regs rs2)))) := by
  rw [← step64_retire regs inst size, ← dest]
  simp only [RV32M.rem, wide, tdU64, dtU64, twosComplement_full, left, right, Bool.false_eq_true,
    if_false]
  exact guarded_rem _ _ fun remainder => Plan.done ((regs.setX64 inst.rd remainder).step64 inst)

theorem rem_narrow (narrow : isRV32 feature = true) : RV32M.rem feature regs inst =
    some (.done (retire rv32 n regs rd (remS (reg rv32 regs rs1) (reg rv32 regs rs2)))) := by
  rw [← step32_retire regs inst size, ← dest]
  simp only [RV32M.rem, narrow, tdU32, dtU32, twosComplement_full, left, right, if_true]
  exact guarded_rem _ _ fun remainder => Plan.done ((regs.setX32 inst.rd remainder).step32 inst)

theorem remu_wide (wide : isRV32 feature = false) : RV32M.remu feature regs inst =
    some (.done (retire rv64 n regs rd
      (if reg rv64 regs rs2 = 0 ∨ (reg rv64 regs rs2).getLsbD 63 = true then reg rv64 regs rs1
        else reg rv64 regs rs1 % reg rv64 regs rs2))) := by
  have top : ∀ x : BitVec 64, (0 : BitVec 64) < (x &&& 0x8000000000000000) >>> 63 ↔ x.getLsbD 63 = true :=
    sign_bit 63 (by decide)
  rw [← step64_retire regs inst size, ← dest]
  simp only [RV32M.remu, wide, sext_full, left, right, top, Bool.false_eq_true, if_false]
  exact guarded_remu _ _ (fun remainder => Plan.done ((regs.setX64 inst.rd remainder).step64 inst)) _

theorem remu_narrow (narrow : isRV32 feature = true) : RV32M.remu feature regs inst =
    some (.done (retire rv32 n regs rd
      (if reg rv32 regs rs2 = 0 ∨ (reg rv64 regs rs2).getLsbD 31 = true then reg rv32 regs rs1
        else reg rv32 regs rs1 % reg rv32 regs rs2))) := by
  have top : ∀ x : BitVec 64, (0 : BitVec 64) < (x &&& 0x80000000) >>> 31 ↔ x.getLsbD 31 = true :=
    sign_bit 31 (by decide)
  rw [← step32_retire regs inst size, ← dest]
  simp only [RV32M.remu, narrow, sextImm_full, word_mask, left, right, top, if_true]
  exact guarded_remu _ _ (fun remainder => Plan.done ((regs.setX32 inst.rd remainder).step32 inst)) _

theorem remw_wide : RV64M.remw regs inst = some (.done (retire rv64 n regs rd
    (if (reg rv64 regs rs2).setWidth 32 = 0 then reg rv64 regs rs1
      else (((reg rv64 regs rs1).setWidth 32).srem
        ((reg rv64 regs rs2).setWidth 32)).signExtend 64))) := by
  rw [← step64_retire regs inst size, ← dest]
  simp only [RV64M.remw, tdU64_word, dtU64_word, left, right, signExtend_zero_iff,
    signExtend_least_iff, signExtend_low]
  exact guarded_remw _ _ (fun remainder => Plan.done ((regs.setX64 inst.rd remainder).step64 inst)) _

theorem remuw_wide : RV64M.remuw regs inst = some (.done (retire rv64 n regs rd
    (if (reg rv64 regs rs2).setWidth 32 = 0 ∨ (reg rv64 regs rs2).getLsbD 63 = true then
        reg rv64 regs rs1
      else ((reg rv64 regs rs1).setWidth 32 %
        (reg rv64 regs rs2).setWidth 32).signExtend 64))) := by
  have top : ∀ x : BitVec 64, (0 : BitVec 64) < (x &&& 0x8000000000000000) >>> 63 ↔ x.getLsbD 63 = true :=
    sign_bit 63 (by decide)
  rw [← step64_retire regs inst size, ← dest]
  simp only [RV64M.remuw, left, right, mask_word, setWidth_zero_iff, sext_word_low, top]
  exact guarded_remuw _ _ (fun remainder => Plan.done ((regs.setX64 inst.rd remainder).step64 inst))
    _ _

end Remainders

def DivOp.isWord : DivOp → Bool
  | .signedWord | .unsignedWord => true
  | _ => false

section Pairs
variable {w : Nat} (op : DivOp)

/-- `r` is the remainder that goes with the quotient `q`, both at the width of the operation and
extended from it. -/
def Remainder : DivOp → BitVec w → BitVec w → BitVec w → BitVec w → Prop
  | .signed, a, b, q, r => SignedRemainder a b q r
  | .unsigned, a, b, q, r => UnsignedRemainder a b q r
  | .signedWord, a, b, q, r => ∃ q' r' : BitVec 32, q = q'.signExtend w ∧ r = r'.signExtend w ∧
    SignedRemainder (a.setWidth 32) (b.setWidth 32) q' r'
  | .unsignedWord, a, b, q, r => ∃ q' r' : BitVec 32, q = q'.signExtend w ∧ r = r'.signExtend w ∧
    UnsignedRemainder (a.setWidth 32) (b.setWidth 32) q' r'

theorem signed_remainder (a b r : BitVec w) :
    SignedRemainder a b (divS a b) r ↔ r = remS a b := by
  by_cases zero : b = 0
  · rw [SignedRemainder, remS, if_pos zero, if_pos zero]
  · rw [divS, if_neg zero, remS]
    exact signed_iff a b r

theorem unsigned_remainder (a b r : BitVec w) :
    UnsignedRemainder a b (divU a b) r ↔ r = remU a b := by
  by_cases zero : b = 0
  · rw [UnsignedRemainder, remU, if_pos zero, if_pos zero]
  · rw [divU, if_neg zero, remU]
    exact unsigned_iff a b r

theorem remainder_iff (fits : 32 ≤ w) (a b r : BitVec w) :
    Remainder op a b (rValue op.quotient a b) r ↔ r = rValue op.remainder a b := by
  cases op with
  | signed => exact signed_remainder a b r
  | unsigned => exact unsigned_remainder a b r
  | signedWord =>
    constructor
    · rintro ⟨q', r', quotient, rfl, pair⟩
      have same := (Bits.signExtend_inj (w := w) _ _ fits).mp quotient
      rw [← same, signed_remainder] at pair
      rw [pair]
      rfl
    · rintro rfl
      exact ⟨_, _, rfl, rfl, (signed_remainder _ _ _).mpr rfl⟩
  | unsignedWord =>
    constructor
    · rintro ⟨q', r', quotient, rfl, pair⟩
      have same := (Bits.signExtend_inj (w := w) _ _ fits).mp quotient
      rw [← same, unsigned_remainder] at pair
      rw [pair]
      rfl
    · rintro rfl
      exact ⟨_, _, rfl, rfl, (unsigned_remainder _ _ _).mpr rfl⟩

variable (mode : Xlen w) (feature : RevFeature) (coProc : Option (BitVec 32 → Bool))
variable (junk : RevInst) (regs : RevRegFile) (rd rs1 rs2 : BitVec 5)

/-- The two instructions of a pair, decoded and run on the same registers, write a quotient and its
remainder. -/
def Coupled : Prop :=
  ∃ q r,
    basePlan (execDiv feature regs) feature coProc junk (encode (.r op.quotient rd rs1 rs2)) =
      some (.done (retire mode 4 regs rd q)) ∧
    basePlan (execDiv feature regs) feature coProc junk (encode (.r op.remainder rd rs1 rs2)) =
      some (.done (retire mode 4 regs rd r)) ∧
    Remainder op (reg mode regs rs1) (reg mode regs rs2) q r

theorem coupled_iff (fits : 32 ≤ w)
    (apart : ∀ value other, retire mode 4 regs rd value = retire mode 4 regs rd other ↔
      rd = 0 ∨ value = other)
    (written : BitVec w)
    (divided : basePlan (execDiv feature regs) feature coProc junk
      (encode (.r op.quotient rd rs1 rs2)) = some (.done (retire mode 4 regs rd
        (rValue op.quotient (reg mode regs rs1) (reg mode regs rs2)))))
    (left : basePlan (execDiv feature regs) feature coProc junk
      (encode (.r op.remainder rd rs1 rs2)) = some (.done (retire mode 4 regs rd written))) :
    Coupled op mode feature coProc junk regs rd rs1 rs2 ↔
      rd = 0 ∨ written = rValue op.remainder (reg mode regs rs1) (reg mode regs rs2) := by
  have same : ∀ after other, some (Plan.done after) = some (Plan.done other) → after = other := by
    intro after other equal
    exact congrFun (congrArg Plan.finish (Option.some.inj equal)) fun _ => 0
  constructor
  · rintro ⟨q, r, quotient, remainder, pair⟩
    rcases (apart _ _).mp (same _ _ (divided.symm.trans quotient)) with dropped | rfl
    · exact .inl dropped
    · rcases (apart _ _).mp (same _ _ (left.symm.trans remainder)) with dropped | rfl
      · exact .inl dropped
      · exact .inr ((remainder_iff op fits _ _ _).mp pair)
  · rintro (dropped | exact)
    · refine ⟨_, rValue op.remainder (reg mode regs rs1) (reg mode regs rs2), divided, ?_,
        (remainder_iff op fits _ _ _).mpr rfl⟩
      rw [left, (apart written _).mpr (.inl dropped)]
    · exact ⟨_, _, divided, left, (remainder_iff op fits _ _ _).mpr exact⟩

end Pairs

section Agreement
variable (feature : RevFeature) (coProc : Option (BitVec 32 → Bool)) (junk : RevInst)
variable (regs : RevRegFile) (mul : isModeEnabled feature .RV_M = true)

section Rows
variable (op : DivOp)

theorem quotient_wide : mulListed (rv32ITable ++ rv64ITable) (rv32MTable ++ rv64MTable)
    (.r op.quotient) (quotientFunc op) = true := by
  cases op <;> decide

theorem remainder_wide : mulListed (rv32ITable ++ rv64ITable) (rv32MTable ++ rv64MTable)
    (.r op.remainder) (remainderFunc op) = true := by
  cases op <;> decide

theorem quotient_narrow (half : op.isWord = false) :
    mulListed rv32ITable rv32MTable (.r op.quotient) (quotientFunc op) = true := by
  cases op <;> first | decide | exact absurd half (by decide)

theorem remainder_narrow (half : op.isWord = false) :
    mulListed rv32ITable rv32MTable (.r op.remainder) (remainderFunc op) = true := by
  cases op <;> first | decide | exact absurd half (by decide)

end Rows

-- What the four remainders write on RV64 and the two on RV32.
def remWide : DivOp → BitVec 64 → BitVec 64 → BitVec 64
  | .signed, a, b => remS a b
  | .unsigned, a, b => if b = 0 ∨ b.getLsbD 63 = true then a else a % b
  | .signedWord, a, b =>
    if b.setWidth 32 = 0 then a else ((a.setWidth 32).srem (b.setWidth 32)).signExtend 64
  | .unsignedWord, a, b =>
    if b.setWidth 32 = 0 ∨ b.getLsbD 63 = true then a
    else (a.setWidth 32 % b.setWidth 32).signExtend 64

-- `top` is the divisor's bit 31, which the code reads from the other register file.
def remNarrow (top : Bool) : DivOp → BitVec 32 → BitVec 32 → BitVec 32
  | .unsigned, a, b => if b = 0 ∨ top = true then a else a % b
  | _, a, b => remS a b

section Plans
variable (op : DivOp) (rd rs1 rs2 : BitVec 5)
include mul

theorem quotient_plan_wide (wide : feature.xlen = 64) :
    basePlan (execDiv feature regs) feature coProc junk (encode (.r op.quotient rd rs1 rs2)) =
      some (.done (retire rv64 4 regs rd
        (rValue op.quotient (reg rv64 regs rs1) (reg rv64 regs rs2)))) := by
  have rv : isRV32 feature = false := by simp [isRV32, wide]
  rcases basePlan_mul feature coProc junk _ _ (mul_rows_wide feature mul wide)
    (execDiv feature regs) (.r op.quotient rd rs1 rs2) (quotientFunc op) (quotient_wide op)
    with ⟨inst, ⟨dest, left, right, -, size, -⟩, ran⟩
  rw [ran]
  cases op with
  | signed => exact div_wide feature regs inst rd rs1 rs2 size dest left right rv
  | unsigned => exact divu_wide feature regs inst rd rs1 rs2 size dest left right rv
  | signedWord => exact divw_wide regs inst rd rs1 rs2 size dest left right
  | unsignedWord => exact divuw_wide regs inst rd rs1 rs2 size dest left right

theorem remainder_plan_wide (wide : feature.xlen = 64) :
    basePlan (execDiv feature regs) feature coProc junk (encode (.r op.remainder rd rs1 rs2)) =
      some (.done (retire rv64 4 regs rd
        (remWide op (reg rv64 regs rs1) (reg rv64 regs rs2)))) := by
  have rv : isRV32 feature = false := by simp [isRV32, wide]
  rcases basePlan_mul feature coProc junk _ _ (mul_rows_wide feature mul wide)
    (execDiv feature regs) (.r op.remainder rd rs1 rs2) (remainderFunc op) (remainder_wide op)
    with ⟨inst, ⟨dest, left, right, -, size, -⟩, ran⟩
  rw [ran]
  cases op with
  | signed => exact rem_wide feature regs inst rd rs1 rs2 size dest left right rv
  | unsigned => exact remu_wide feature regs inst rd rs1 rs2 size dest left right rv
  | signedWord => exact remw_wide regs inst rd rs1 rs2 size dest left right
  | unsignedWord => exact remuw_wide regs inst rd rs1 rs2 size dest left right

theorem quotient_plan_narrow (narrow : feature.xlen = 32) (half : op.isWord = false) :
    basePlan (execDiv feature regs) feature coProc junk (encode (.r op.quotient rd rs1 rs2)) =
      some (.done (retire rv32 4 regs rd
        (rValue op.quotient (reg rv32 regs rs1) (reg rv32 regs rs2)))) := by
  have rv : isRV32 feature = true := by simp [isRV32, narrow]
  rcases basePlan_mul feature coProc junk _ _ (mul_rows_narrow feature mul narrow)
    (execDiv feature regs) (.r op.quotient rd rs1 rs2) (quotientFunc op) (quotient_narrow op half)
    with ⟨inst, ⟨dest, left, right, -, size, -⟩, ran⟩
  rw [ran]
  cases op with
  | signed => exact div_narrow feature regs inst rd rs1 rs2 size dest left right rv
  | unsigned => exact divu_narrow feature regs inst rd rs1 rs2 size dest left right rv
  | signedWord => exact absurd half (by decide)
  | unsignedWord => exact absurd half (by decide)

theorem remainder_plan_narrow (narrow : feature.xlen = 32) (half : op.isWord = false) :
    basePlan (execDiv feature regs) feature coProc junk (encode (.r op.remainder rd rs1 rs2)) =
      some (.done (retire rv32 4 regs rd
        (remNarrow ((reg rv64 regs rs2).getLsbD 31) op (reg rv32 regs rs1)
          (reg rv32 regs rs2)))) := by
  have rv : isRV32 feature = true := by simp [isRV32, narrow]
  rcases basePlan_mul feature coProc junk _ _ (mul_rows_narrow feature mul narrow)
    (execDiv feature regs) (.r op.remainder rd rs1 rs2) (remainderFunc op)
    (remainder_narrow op half) with ⟨inst, ⟨dest, left, right, -, size, -⟩, ran⟩
  rw [ran]
  cases op with
  | signed => exact rem_narrow feature regs inst rd rs1 rs2 size dest left right rv
  | unsigned => exact remu_narrow feature regs inst rd rs1 rs2 size dest left right rv
  | signedWord => exact absurd half (by decide)
  | unsignedWord => exact absurd half (by decide)

/-- Every quotient is the manual's, and no division the host runs traps. -/
theorem quotients_meet_isa :
    (feature.xlen = 64 → BaseAgrees rv64 (execDiv feature regs) feature coProc junk regs
      (.r op.quotient rd rs1 rs2)) ∧
    (feature.xlen = 32 → op.isWord = false → BaseAgrees rv32 (execDiv feature regs) feature coProc
      junk regs (.r op.quotient rd rs1 rs2)) := by
  constructor
  · intro wide
    exact ⟨_, quotient_plan_wide feature coProc junk regs mul op rd rs1 rs2 wide,
      (means_done_iff _ _).mpr rfl⟩
  · intro narrow half
    exact ⟨_, quotient_plan_narrow feature coProc junk regs mul op rd rs1 rs2 narrow half,
      (means_done_iff _ _).mpr rfl⟩

end Plans

-- The least value divided by -1, at both widths.
theorem quotients_meet_isa_overflow :
    BaseAgrees rv64
      (execDiv { features := 6, xlen := 64, minCost := 1, maxCost := 1 }
        { (default : RevRegFile) with
          rv64 := fun index => if index = 6 then BitVec.intMin 64 else -1 })
      { features := 6, xlen := 64, minCost := 1, maxCost := 1 } none default
      { (default : RevRegFile) with
        rv64 := fun index => if index = 6 then BitVec.intMin 64 else -1 }
      (.r DivOp.signed.quotient 5 6 7) :=
  (quotients_meet_isa { features := 6, xlen := 64, minCost := 1, maxCost := 1 } none default _
    (by decide) .signed 5 6 7).1 rfl

section Conditions

/-- On RV64: an unsigned divisor with its top bit set exceeds the dividend, and where a word form
returns the dividend's register, that register is extended from bit 31. -/
def RemKept : DivOp → BitVec 64 → BitVec 64 → Prop
  | .signed, _, _ => True
  | .unsigned, a, b => b.getLsbD 63 = true → a < b
  | .signedWord, a, b => b.setWidth 32 = 0 → a = (a.setWidth 32).signExtend 64
  | .unsignedWord, a, b => b.setWidth 32 = 0 ∨ b.getLsbD 63 = true →
    a = (a.setWidth 32).signExtend 64 ∧ (b.setWidth 32 = 0 ∨ a.setWidth 32 < b.setWidth 32)

/-- On RV32 the bit tested is the other register file's. -/
def RemKeptNarrow (top : Bool) : DivOp → BitVec 32 → BitVec 32 → Prop
  | .unsigned, a, b => top = true → b = 0 ∨ a < b
  | _, _, _ => True

section Unsigned
variable {n : Nat} (a b : BitVec n)

theorem umod_eq_self_iff (nonzero : b ≠ 0) : a = a % b ↔ a < b := by
  have positive : 0 < b := (BitVec.pos_iff_ne_zero b).mpr nonzero
  constructor
  · intro same
    rw [same]
    exact BitVec.umod_lt a positive
  · intro below
    exact (BitVec.umod_eq_of_lt below).symm

theorem early_iff (also : Prop) [Decidable also] :
    (if b = 0 ∨ also then a else a % b) = remU a b ↔ (also → b = 0 ∨ a < b) := by
  rw [remU]
  by_cases zero : b = 0
  · rw [if_pos (.inl zero), if_pos zero]
    exact iff_of_true rfl fun _ => .inl zero
  · rw [if_neg zero]
    by_cases early : also
    · rw [if_pos (.inr early), umod_eq_self_iff a b zero]
      exact ⟨fun below _ => .inr below, fun below => (below early).resolve_left zero⟩
    · rw [if_neg (not_or_intro zero early)]
      exact iff_of_true rfl fun also => absurd also early

end Unsigned

theorem remWide_iff (op : DivOp) (a b : BitVec 64) :
    remWide op a b = rValue op.remainder a b ↔ RemKept op a b := by
  cases op with
  | signed => exact iff_of_true rfl trivial
  | unsigned =>
    refine (early_iff a b _).trans (forall_congr' fun top => or_iff_right ?_)
    rintro rfl
    exact absurd top (by decide)
  | signedWord =>
    simp only [remWide, DivOp.remainder, rValue, onWords, RemKept, remS]
    by_cases zero : b.setWidth 32 = 0
    · rw [if_pos zero, if_pos zero]
      exact (imp_iff_right zero).symm
    · rw [if_neg zero, if_neg zero]
      exact iff_of_true rfl fun none => absurd none zero
  | unsignedWord =>
    simp only [remWide, DivOp.remainder, rValue, onWords, RemKept, remU]
    by_cases zero : b.setWidth 32 = 0
    · rw [if_pos (.inl zero), if_pos zero, imp_iff_right (.inl zero)]
      exact (and_iff_left (.inl zero)).symm
    · rw [if_neg zero]
      by_cases top : b.getLsbD 63 = true
      · rw [if_pos (.inr top), imp_iff_right (.inr top), or_iff_right zero,
          ← umod_eq_self_iff _ _ zero]
        constructor
        · intro same
          have low : a.setWidth 32 = a.setWidth 32 % b.setWidth 32 := by
            conv_lhs => rw [same]
            exact signExtend_low _
          rw [← low] at same
          exact ⟨same, low⟩
        · rintro ⟨same, low⟩
          rw [← low]
          exact same
      · rw [if_neg (not_or_intro zero top)]
        exact iff_of_true rfl fun early => absurd early (not_or_intro zero top)

theorem remNarrow_iff (top : Bool) (op : DivOp) (half : op.isWord = false) (a b : BitVec 32) :
    remNarrow top op a b = rValue op.remainder a b ↔ RemKeptNarrow top op a b := by
  cases op with
  | signed => exact iff_of_true rfl trivial
  | unsigned => exact early_iff a b _
  | signedWord => exact absurd half (by decide)
  | unsignedWord => exact absurd half (by decide)

end Conditions

section Pairing
variable (op : DivOp) (rd rs1 rs2 : BitVec 5)
include mul

theorem coupled_wide (wide : feature.xlen = 64) :
    Coupled op rv64 feature coProc junk regs rd rs1 rs2 ↔
      rd = 0 ∨ RemKept op (reg rv64 regs rs1) (reg rv64 regs rs2) := by
  rw [← remWide_iff]
  exact coupled_iff op rv64 feature coProc junk regs rd rs1 rs2 (by decide) (retire_iff regs rd) _
    (quotient_plan_wide feature coProc junk regs mul op rd rs1 rs2 wide)
    (remainder_plan_wide feature coProc junk regs mul op rd rs1 rs2 wide)

/-- The remainders and the quotients, with any operands and registers. -/
theorem remainders_agree_iff :
    (feature.xlen = 64 → (Coupled op rv64 feature coProc junk regs rd rs1 rs2 ↔
      rd = 0 ∨ RemKept op (reg rv64 regs rs1) (reg rv64 regs rs2))) ∧
    (feature.xlen = 32 → op.isWord = false →
      (Coupled op rv32 feature coProc junk regs rd rs1 rs2 ↔
        rd = 0 ∨ RemKeptNarrow ((reg rv64 regs rs2).getLsbD 31) op (reg rv32 regs rs1)
          (reg rv32 regs rs2))) := by
  constructor
  · exact coupled_wide feature coProc junk regs mul op rd rs1 rs2
  · intro narrow half
    rw [← remNarrow_iff _ op half]
    exact coupled_iff op rv32 feature coProc junk regs rd rs1 rs2 (by decide)
      (retire_iff_narrow regs rd) _
      (quotient_plan_narrow feature coProc junk regs mul op rd rs1 rs2 narrow half)
      (remainder_plan_narrow feature coProc junk regs mul op rd rs1 rs2 narrow half)

end Pairing

-- remw of a zero divisor whose upper half is not zero.
theorem remainders_agree_iff_word :
    Coupled .signedWord rv64 { features := 6, xlen := 64, minCost := 1, maxCost := 1 } none default
      { (default : RevRegFile) with rv64 := fun index => if index = 6 then 5 else 0x100000000 }
      5 6 7 :=
  ((remainders_agree_iff { features := 6, xlen := 64, minCost := 1, maxCost := 1 } none default
    _ (by decide) .signedWord 5 6 7).1 rfl).mpr
      (.inr (show RemKept .signedWord 5 0x100000000 from fun _ => by decide))

/-- remu x5, x6, x7 on x6 = 2^64 - 1 and x7 = 2^63: x5 is not 2^63 - 1 but x6. -/
theorem remainders_large_divisor :
    ¬ Coupled .unsigned rv64 { features := 6, xlen := 64, minCost := 1, maxCost := 1 } none default
      { (default : RevRegFile) with
        rv64 := fun index => if index = 6 then -1 else 0x8000000000000000 }
      5 6 7 := by
  rw [coupled_wide _ _ _ _ (by decide) _ _ _ _ rfl]
  rintro (zero | kept)
  · exact absurd zero (by decide)
  · have below := (show RemKept .unsigned (-1) 0x8000000000000000 from kept) (by decide)
    exact absurd below (by decide)

end Agreement
end RevCPU.Divide
