import RevCPU.Insns.RV64M
import RevCPU.Lib.HighHalf
import RevCPU.WordArith
/-!
The multiply instructions against the manual. The product from 32-bit limbs and its sign correction
are exact, so mul, mulh, mulhu and mulw are right on RV64. mulhsu reads its signed operand from bit
31, and the three high halves of RV32 are not taken from a 64-bit product.
-/
namespace RevCPU.Multiply
open Feature InstTable IntTables Seed DecodeBase RegFile Insns Manual Isa HighHalf
open BaseArith (BaseAgrees basePlan basePlan_row rowWith)
open RV32M (mulhuImpl mulhImpl mulhsuImpl)

section Impl
variable (a b : BitVec 64)

theorem mulhuImpl_eq : mulhuImpl a b = high 64 (a.toNat * b.toNat : Nat) := by
  have product := limb_product (2 ^ 32) a.toNat b.toNat
  have whole : a.toNat * b.toNat < 2 ^ 128 := by
    calc a.toNat * b.toNat < 2 ^ 64 * 2 ^ 64 := Nat.mul_lt_mul'' a.isLt b.isLt
      _ = 2 ^ 128 := by norm_num
  -- each partial product is below 2^64, so it is exact before it is widened
  have partialProduct : ∀ x y : BitVec 64, x.toNat < 2 ^ 32 → y.toNat < 2 ^ 32 →
      ((x * y).setWidth 128).toNat = x.toNat * y.toNat := by
    intro x y left right
    have below : x.toNat * y.toNat < 2 ^ 64 := by
      calc x.toNat * y.toNat < 2 ^ 32 * 2 ^ 32 := Nat.mul_lt_mul'' left right
        _ = 2 ^ 64 := by norm_num
    rw [BitVec.toNat_setWidth_of_le (by decide), BitVec.toNat_mul, Nat.mod_eq_of_lt below]
  have low : ∀ x : BitVec 64, ((x.setWidth 32).setWidth 64).toNat = x.toNat % 2 ^ 32 := by
    intro x
    rw [BitVec.toNat_setWidth_of_le (by decide), BitVec.toNat_setWidth]
  have upper : ∀ x : BitVec 64, (x >>> 32).toNat = x.toNat / 2 ^ 32 := by
    intro x
    rw [BitVec.toNat_ushiftRight, Nat.shiftRight_eq_div_pow]
  have lowLimb : ∀ x : BitVec 64, ((x.setWidth 32).setWidth 64).toNat < 2 ^ 32 := by
    intro x
    rw [low]
    exact Nat.mod_lt _ (by norm_num)
  have highLimb : ∀ x : BitVec 64, (x >>> 32).toNat < 2 ^ 32 := by
    intro x
    rw [upper]
    have bound := x.isLt
    omega
  have sum : ∀ p1 p2 p3 p4 : BitVec 128,
      p1.toNat + p2.toNat * 2 ^ 32 + p3.toNat * 2 ^ 32 + p4.toNat * (2 ^ 32 * 2 ^ 32) =
        a.toNat * b.toNat →
      (p1 + p2 <<< 32 + p3 <<< 32 + p4 <<< 64).toNat = a.toNat * b.toNat := by
    intro p1 p2 p3 p4 total
    simp only [BitVec.toNat_add, BitVec.toNat_shiftLeft, Nat.shiftLeft_eq]
    omega
  rw [← low a, ← low b, ← upper a, ← upper b,
    ← partialProduct _ _ (lowLimb a) (lowLimb b), ← partialProduct _ _ (highLimb a) (lowLimb b),
    ← partialProduct _ _ (lowLimb a) (highLimb b),
    ← partialProduct _ _ (highLimb a) (highLimb b)] at product
  have total := sum _ _ _ _ product
  apply BitVec.eq_of_toNat_eq
  rw [mulhuImpl, BitVec.toNat_setWidth, BitVec.toNat_ushiftRight, total, high, BitVec.toNat_ofInt,
    Nat.shiftRight_eq_div_pow]
  omega

-- The magnitude of a signed operand; the least one is its own negation.
theorem magnitude : (if a.slt 0 then -a else a).toNat = a.toInt.natAbs := by
  have sign : a.slt 0 = a.msb := BitVec.slt_zero_eq_msb
  have bound := a.isLt
  rw [sign, BitVec.toInt_eq_msb_cond]
  cases negative : a.msb with
  | false => rfl
  | true =>
    have upper : 2 ^ 63 ≤ a.toNat := by
      have top := BitVec.msb_eq_decide a
      rw [negative] at top
      exact of_decide_eq_true top.symm
    simp only [if_true, BitVec.toNat_neg]
    omega

-- Negated or not, the high half of the signed product is taken from the magnitudes'.
theorem correct_sign (product : Nat) (negate : Bool) (x y : BitVec 64) (signed : Int)
    (low : x * y = BitVec.ofInt 64 signed) (same : signed = if negate then -(product : Int) else product) :
    (if negate then ~~~high 64 product + (if x * y = 0 then 1 else 0) else high 64 product) =
      high 64 signed := by
  cases negate with
  | false => rw [same]; rfl
  | true =>
    have zero : x * y = 0 ↔ (product : Int) % 2 ^ 64 = 0 := by
      rw [low, same, show (0 : BitVec 64) = BitVec.ofInt 64 0 from rfl, ofInt_eq_iff]
      simp only [if_true]
      omega
    rw [if_pos rfl, same, if_pos rfl, high_neg]
    simp only [zero]

-- The magnitude with its sign.
theorem signed_magnitude :
    a.toInt = if a.slt 0 then -(a.toInt.natAbs : Int) else a.toInt.natAbs := by
  have sign : a.slt 0 = decide (a.toInt < 0) := rfl
  rw [sign]
  by_cases negative : a.toInt < 0
  · rw [if_pos (decide_eq_true negative)]
    omega
  · rw [if_neg (by simpa using negative)]
    omega

theorem mulhImpl_eq : mulhImpl a b = high 64 (a.toInt * b.toInt) := by
  have low : a * b = BitVec.ofInt 64 (a.toInt * b.toInt) := by
    rw [BitVec.ofInt_mul, BitVec.ofInt_toInt, BitVec.ofInt_toInt]
  rw [mulhImpl, mulhuImpl_eq, magnitude, magnitude]
  apply correct_sign _ _ a b _ low
  conv_lhs => rw [signed_magnitude a, signed_magnitude b]
  push_cast
  cases a.slt 0 <;> cases b.slt 0 <;> simp

theorem mulhsuImpl_eq : mulhsuImpl a b = high 64 (a.toInt * b.toNat) := by
  have low : a * b = BitVec.ofInt 64 (a.toInt * b.toNat) := by
    rw [BitVec.ofInt_mul, BitVec.ofInt_toInt, BitVec.ofInt_natCast, BitVec.ofNat_toNat,
      BitVec.setWidth_eq]
  rw [mulhsuImpl, mulhuImpl_eq, magnitude]
  apply correct_sign _ _ a b _ low
  conv_lhs => rw [signed_magnitude a]
  push_cast
  cases a.slt 0 <;> simp

/-- The helpers return the high words of the 128-bit products: unsigned, signed, and signed by unsigned. -/
theorem high_words_exact :
    mulhuImpl a b = (a.setWidth 128 * b.setWidth 128).extractLsb' 64 64 ∧
      mulhImpl a b = (a.signExtend 128 * b.signExtend 128).extractLsb' 64 64 ∧
      mulhsuImpl a b = (a.signExtend 128 * b.setWidth 128).extractLsb' 64 64 := by
  refine ⟨?_, ?_, ?_⟩
  · rw [mulhuImpl_eq, Nat.cast_mul]
    exact (high_unsigned a b).symm
  · rw [mulhImpl_eq]
    exact (high_signed a b).symm
  · rw [mulhsuImpl_eq]
    exact (high_mixed a b).symm

end Impl
section Conditions

-- What both conversions do from bit 31.
theorem from_bit31 (x : BitVec 64) : twosComplement x 32 =
    if x.getLsbD 31 then (x.setWidth 32).signExtend 64 else x := by
  cases bit : x.getLsbD 31 with
  | false =>
    rw [twosComplement_eq, show x.getLsbD (32 - 1) = false from bit]
    rfl
  | true =>
    rw [if_pos rfl]
    apply BitVec.eq_of_getLsbD_eq
    intro i inside
    rw [twosComplement_eq, show x.getLsbD (32 - 1) = true from bit, if_pos rfl, BitVec.getLsbD_or,
      BitVec.getLsbD_shiftLeft, BitVec.getLsbD_allOnes, BitVec.getLsbD_signExtend,
      BitVec.getLsbD_setWidth]
    have sign : (x.setWidth 32).msb = true := by
      rw [BitVec.msb_eq_getLsbD_last, BitVec.getLsbD_setWidth]
      exact bit
    by_cases low : i < 32
    · simp [low, inside]
    · simp [low, inside, sign, show i - 32 < 64 by omega]

theorem toInt_low (x : BitVec 64) (bit : x.getLsbD 31 = true) :
    ((x.setWidth 32).signExtend 64).toInt = x.toNat % 2 ^ 32 - 2 ^ 32 := by
  rw [BitVec.getLsbD, Nat.testBit_eq_decide_div_mod_eq, decide_eq_true_eq] at bit
  rw [BitVec.toInt_signExtend_of_le (by decide), BitVec.toInt_eq_toNat_cond,
    BitVec.toNat_setWidth]
  split <;> omega

theorem dtU64_kept (x : BitVec 64) : dtU64 x 32 = x ↔
    x.toInt % 2 ^ 32 < 2 ^ 31 ∨ (-2 ^ 31 ≤ x.toInt ∧ x.toInt < 0) := by
  have bound := x.isLt
  rw [dtU64, from_bit31]
  cases bit : x.getLsbD 31 with
  | false =>
    rw [if_neg Bool.false_ne_true]
    apply iff_of_true rfl
    rw [BitVec.getLsbD, Nat.testBit_eq_decide_div_mod_eq, decide_eq_false_iff_not] at bit
    rw [BitVec.toInt_eq_toNat_cond]
    split <;> omega
  | true =>
    rw [if_pos rfl, ← BitVec.toInt_inj, toInt_low x bit]
    rw [BitVec.getLsbD, Nat.testBit_eq_decide_div_mod_eq, decide_eq_true_eq] at bit
    rw [BitVec.toInt_eq_toNat_cond]
    split <;> omega

/-- mulhsu of RV64: where bit 31 of rs1 is set, its low word must give the same high half as the
whole; where it is clear, the high half must be one that its own extension from bit 31 keeps. -/
def MixedKept (a b : BitVec 64) : Prop :=
  let product := a.toInt * b.toNat
  if a.getLsbD 31 then (a.setWidth 32).toInt * b.toNat / 2 ^ 64 = product / 2 ^ 64
  else product / 2 ^ 64 % 2 ^ 32 < 2 ^ 31 ∨
    (-2 ^ 31 ≤ product / 2 ^ 64 ∧ product / 2 ^ 64 < 0)

instance (a b : BitVec 64) : Decidable (MixedKept a b) :=
  inferInstanceAs (Decidable (ite _ _ _))

-- The high half of a signed and an unsigned operand is no longer than the signed one.
theorem mixed_bounds (bits : Nat) (a : Int) (b : BitVec 64) (low : -2 ^ bits ≤ a)
    (high : a < 2 ^ bits) : -2 ^ bits ≤ a * b.toNat / 2 ^ 64 ∧ a * b.toNat / 2 ^ 64 < 2 ^ bits := by
  have above : (b.toNat : Int) < 2 ^ 64 := by exact_mod_cast b.isLt
  have below : (0 : Int) ≤ b.toNat := Int.natCast_nonneg _
  constructor
  · rw [Int.le_ediv_iff_mul_le (by norm_num)]
    nlinarith
  · rw [Int.ediv_lt_iff_lt_mul (by norm_num)]
    nlinarith

theorem toInt_high (product : Int) (low : -2 ^ 63 ≤ product / 2 ^ 64)
    (above : product / 2 ^ 64 < 2 ^ 63) : (high 64 product).toInt = product / 2 ^ 64 := by
  rw [high, BitVec.toInt_ofInt]
  exact Int.bmod_eq_of_le (by omega) (by omega)

theorem mixed_iff (a b : BitVec 64) :
    dtU64 (high 64 ((tdU64 a 32).toInt * b.toNat)) 32 = high 64 (a.toInt * b.toNat) ↔
      MixedKept a b := by
  have fits := mixed_bounds 63 a.toInt b (BitVec.le_toInt a) BitVec.toInt_lt
  have whole := toInt_high _ fits.1 fits.2
  rw [tdU64, from_bit31, MixedKept]
  cases bit : a.getLsbD 31 with
  | false =>
    simp only [Bool.false_eq_true, if_false]
    rw [dtU64_kept, whole]
  | true =>
    simp only [if_true]
    rw [BitVec.toInt_signExtend_of_le (by decide)]
    have part := mixed_bounds 31 (a.setWidth 32).toInt b (BitVec.le_toInt _) BitVec.toInt_lt
    have word := toInt_high ((a.setWidth 32).toInt * b.toNat) (by omega) (by omega)
    have negative : (a.setWidth 32).toInt < 0 := by
      have top : (a.setWidth 32).msb = true := by
        rw [BitVec.msb_eq_getLsbD_last, BitVec.getLsbD_setWidth]
        exact bit
      rw [BitVec.msb_eq_toInt] at top
      exact of_decide_eq_true top
    have nonpositive : (a.setWidth 32).toInt * b.toNat ≤ 0 :=
      Int.mul_nonpos_of_nonpos_of_nonneg (le_of_lt negative) (Int.natCast_nonneg _)
    have below := Int.ediv_nonpos_of_nonpos_of_neg (s := 2 ^ 64) nonpositive (by norm_num)
    have kept := (dtU64_kept (high 64 ((a.setWidth 32).toInt * b.toNat))).mpr (by
      rw [word]
      omega)
    rw [kept, ← BitVec.toInt_inj, word, whole]

theorem zero_high_iff {value : Int} (below : -2 ^ 63 ≤ value) (above : value < 2 ^ 64) :
    0 = high 32 value ↔ 0 ≤ value ∧ value < 2 ^ 32 := by
  rw [show (0 : BitVec 32) = BitVec.ofInt 32 0 from rfl, high, ofInt_eq_iff]
  omega

theorem abs_toInt_le (a : BitVec 32) : |a.toInt| ≤ 2 ^ 31 :=
  abs_le.mpr ⟨BitVec.le_toInt a, le_of_lt BitVec.toInt_lt⟩

theorem high_zero_iff (a b : BitVec 32) :
    0 = high 32 (a.toInt * b.toInt) ↔ 0 ≤ a.toInt * b.toInt ∧ a.toInt * b.toInt < 2 ^ 32 := by
  have bound : |a.toInt * b.toInt| ≤ 2 ^ 31 * 2 ^ 31 := by
    rw [abs_mul]
    exact mul_le_mul (abs_toInt_le a) (abs_toInt_le b) (abs_nonneg _) (by norm_num)
  obtain ⟨below, above⟩ := abs_le.mp bound
  exact zero_high_iff (by omega) (by omega)

theorem high_zero_mixed (a b : BitVec 32) :
    0 = high 32 (a.toInt * b.toNat) ↔ 0 ≤ a.toInt * b.toNat ∧ a.toInt * b.toNat < 2 ^ 32 := by
  have magnitude : |(b.toNat : Int)| ≤ 2 ^ 32 := by
    have size := b.isLt
    rw [abs_of_nonneg (Int.natCast_nonneg _)]
    omega
  have bound : |a.toInt * (b.toNat : Int)| ≤ 2 ^ 31 * 2 ^ 32 := by
    rw [abs_mul]
    exact mul_le_mul (abs_toInt_le a) magnitude (abs_nonneg _) (by norm_num)
  obtain ⟨below, above⟩ := abs_le.mp bound
  exact zero_high_iff (by omega) (by omega)

theorem high_zero_unsigned (a b : BitVec 32) :
    0 = BitVec.ofNat 32 (a.toNat * b.toNat / 2 ^ 32) ↔ a.toNat * b.toNat < 2 ^ 32 := by
  have below : a.toNat * b.toNat < 2 ^ 32 * 2 ^ 32 := Nat.mul_lt_mul'' a.isLt b.isLt
  have quotient : a.toNat * b.toNat / 2 ^ 32 < 2 ^ 32 := Nat.div_lt_of_lt_mul below
  have zero : (0 : BitVec 32).toNat = 0 := rfl
  rw [← BitVec.toNat_inj, BitVec.toNat_ofNat, Nat.mod_eq_of_lt quotient, zero]
  omega

end Conditions
section Values
variable (feature : RevFeature) (regs : RevRegFile) (inst : RevInst) {n : Nat}
variable (rd rs1 rs2 : BitVec 5) (size : inst.instSize = n) (dest : inst.rd = rd.setWidth 8)
variable (left : inst.rs1 = rs1.setWidth 8) (right : inst.rs2 = rs2.setWidth 8)
include size dest left right

theorem mulw_wide : RV64M.mulw regs inst =
    .done (retire rv64 n regs rd (rValue .mulw (reg rv64 regs rs1) (reg rv64 regs rs2))) := by
  have low : ∀ x : BitVec 64, (twosComplement x 32).setWidth 32 = x.setWidth 32 := by
    intro x
    rw [from_bit31]
    cases x.getLsbD 31 with
    | false => rfl
    | true =>
      rw [if_pos rfl, Bits.setWidth_signExtend _ (by decide), BitVec.signExtend_eq]
  have word : ∀ x : BitVec 64,
      sext (twosComplement x 32 &&& 0xFFFFFFFF) 32 = (x.setWidth 32).signExtend 64 := by
    intro x
    rw [WordArith.mask_word, low, WordArith.sext_word_low]
  simp only [RV64M.mulw, tdU64, dtU64, dest, left, right,
    RevRegFile.setX64_update _ _ _ (fun x => sext x 32), word,
    BitVec.setWidth_mul _ _ (show 32 ≤ 64 by decide), low, step64_retire regs inst size]
  rfl

section Wide
variable (wide : isRV32 feature = false)
include wide

theorem mul_wide : RV32M.mul feature regs inst =
    .done (retire rv64 n regs rd (rValue .mul (reg rv64 regs rs1) (reg rv64 regs rs2))) := by
  simp only [RV32M.mul, wide, tdU64, dtU64, twosComplement_full, dest, left, right,
    step64_retire regs inst size]
  rfl

theorem mulh_wide : RV32M.mulh feature regs inst =
    .done (retire rv64 n regs rd (rValue .mulh (reg rv64 regs rs1) (reg rv64 regs rs2))) := by
  simp only [RV32M.mulh, wide, tdU64, dtU64, twosComplement_full, dest, left, right, mulhImpl_eq,
    step64_retire regs inst size, rValue, highHalf, high_signed]
  rfl

theorem mulhu_wide (overshift : BitVec 32 → BitVec 32) : RV32M.mulhu feature regs inst overshift =
    .done (retire rv64 n regs rd (rValue .mulhu (reg rv64 regs rs1) (reg rv64 regs rs2))) := by
  simp only [RV32M.mulhu, wide, dtU64, twosComplement_full, dest, left, right, mulhuImpl_eq,
    step64_retire regs inst size, rValue, highHalf, high_unsigned]
  rfl

theorem mulhsu_wide (overshift : BitVec 32 → BitVec 32) :
    RV32M.mulhsu feature regs inst overshift = .done (retire rv64 n regs rd
      (dtU64 (high 64 ((tdU64 (reg rv64 regs rs1) 32).toInt * (reg rv64 regs rs2).toNat)) 32)) := by
  simp only [RV32M.mulhsu, wide, dest, left, right, mulhsuImpl_eq, step64_retire regs inst size]
  rfl

end Wide

section Narrow
variable (narrow : isRV32 feature = true)
include narrow

theorem mul_narrow : RV32M.mul feature regs inst =
    .done (retire rv32 n regs rd (rValue .mul (reg rv32 regs rs1) (reg rv32 regs rs2))) := by
  simp only [RV32M.mul, narrow, tdU32, dtU32, twosComplement_full, dest, left, right,
    step32_retire regs inst size]
  rfl

omit left right in
-- The high half of a 64-bit product of two words is 0.
theorem mulh_narrow : RV32M.mulh feature regs inst = .done (retire rv32 n regs rd 0) := by
  have none : ∀ x y : BitVec 32, (mulhImpl (x.setWidth 64) (y.setWidth 64)) = 0 := by
    intro x y
    have plain : ∀ z : BitVec 32, (z.setWidth 64).toInt = z.toNat := by
      intro z
      have value : (z.setWidth 64).toNat = z.toNat := BitVec.toNat_setWidth_of_le (by decide)
      rw [BitVec.toInt_eq_toNat_of_lt (by omega), value]
    have below : (x.toNat : Int) * y.toNat < 2 ^ 64 := by
      have product : x.toNat * y.toNat < 2 ^ 32 * 2 ^ 32 := Nat.mul_lt_mul'' x.isLt y.isLt
      exact_mod_cast product
    rw [mulhImpl_eq, plain, plain, high, Int.ediv_eq_zero_of_lt (by positivity) below]
    rfl
  simp only [RV32M.mulh, narrow, tdU32, dtU32, twosComplement_full, dest, none,
    step32_retire regs inst size]
  rfl

theorem mulhsu_narrow (overshift : BitVec 32 → BitVec 32) :
    RV32M.mulhsu feature regs inst overshift = .done (retire rv32 n regs rd
      (overshift (reg rv32 regs rs1 * reg rv32 regs rs2))) := by
  simp only [RV32M.mulhsu, narrow, tdU32, dtU32, twosComplement_full, dest, left, right,
    step32_retire regs inst size]
  rfl

theorem mulhu_narrow (overshift : BitVec 32 → BitVec 32) :
    RV32M.mulhu feature regs inst overshift = .done (retire rv32 n regs rd
      (overshift (reg rv32 regs rs1 * reg rv32 regs rs2))) := by
  simp only [RV32M.mulhu, narrow, tdU32, dtU32, twosComplement_full, dest, left, right,
    step32_retire regs inst size]
  rfl

end Narrow
end Values
section Agreement
variable (overshift : BitVec 32 → BitVec 32) (feature : RevFeature)
variable (coProc : Option (BitVec 32 → Bool)) (junk : RevInst) (regs : RevRegFile)
variable (mul : isModeEnabled feature .RV_M = true)

inductive MulOp where
  | mul | mulh | mulhsu | mulhu | mulw
deriving DecidableEq, Repr

def MulOp.toROp : MulOp → ROp
  | .mul => .mul | .mulh => .mulh | .mulhsu => .mulhsu | .mulhu => .mulhu | .mulw => .mulw

-- The function the tables name for an operation.
def mulFunc : MulOp → ImplFunc
  | .mul => .rv32m .mul | .mulh => .rv32m .mulh | .mulhsu => .rv32m .mulhsu
  | .mulhu => .rv32m .mulhu | .mulw => .rv64m .mulw

def execMul (inst : RevInst) : ImplFunc → Option Plan
  | .rv32m .mul => some (RV32M.mul feature regs inst)
  | .rv32m .mulh => some (RV32M.mulh feature regs inst)
  | .rv32m .mulhsu => some (RV32M.mulhsu feature regs inst overshift)
  | .rv32m .mulhu => some (RV32M.mulhu feature regs inst overshift)
  | .rv64m .mulw => some (RV64M.mulw regs inst)
  | _ => none

def WideKept : MulOp → BitVec 64 → BitVec 64 → Prop
  | .mulhsu, a, b => MixedKept a b
  | _, _, _ => True

/-- On RV32 mulh yields 0, and mulhsu and mulhu what the host yields for the low half shifted by
its whole width. -/
def NarrowKept : MulOp → BitVec 32 → BitVec 32 → Prop
  | .mulh, a, b => 0 ≤ a.toInt * b.toInt ∧ a.toInt * b.toInt < 2 ^ 32
  | .mulhsu, a, b => overshift (a * b) = BitVec.ofInt 32 (a.toInt * b.toNat / 2 ^ 32)
  | .mulhu, a, b => overshift (a * b) = BitVec.ofNat 32 (a.toNat * b.toNat / 2 ^ 32)
  | _, _, _ => True

-- With the value 0 that GCC folds the shift to, the high half has to be 0.
theorem narrowKept_zero (a b : BitVec 32) :
    (NarrowKept (fun _ => 0) .mulhsu a b ↔ 0 ≤ a.toInt * b.toNat ∧ a.toInt * b.toNat < 2 ^ 32) ∧
      (NarrowKept (fun _ => 0) .mulhu a b ↔ a.toNat * b.toNat < 2 ^ 32) :=
  ⟨high_zero_mixed a b, high_zero_unsigned a b⟩

section Rows

def named (func : ImplFunc) (row : RevInstEntry) : Bool := decide (row.func = func)

/-- The row of an operation of M, where the rows of M come first and where they come second. -/
def mulListed (base extension : List RevInstEntry) (op : Op) (func : ImplFunc) : Bool :=
  rowWith extension op (named func) && rowWith (base ++ extension) op (named func)

include mul

theorem mul_rows_wide (wide : feature.xlen = 64) :
    (if isModeEnabled feature .RV_I then rv32ITable ++ rv64ITable else []) ++
      (rv32MTable ++ rv64MTable) <+: (enabledExts feature).flatMap fun call => call.1.table := by
  cases base : isModeEnabled feature .RV_I with
  | true =>
    rw [if_pos rfl]
    exact mul_rows_second feature wide base mul
  | false =>
    simp only [enabledExts, Seed.when, base, mul, wide, Bool.false_eq_true, if_false, if_true,
      beq_self_eq_true, List.nil_append, List.append_assoc, List.flatMap_append]
    exact List.prefix_append (rv32MTable ++ rv64MTable) _

theorem mul_rows_narrow (narrow : feature.xlen = 32) :
    (if isModeEnabled feature .RV_I then rv32ITable else []) ++ rv32MTable <+:
      (enabledExts feature).flatMap fun call => call.1.table := by
  have width : (feature.xlen == 64) = false := by rw [narrow]; rfl
  cases base : isModeEnabled feature .RV_I with
  | true =>
    simp only [enabledExts, Seed.when, base, mul, width, Bool.false_eq_true, if_false, if_true,
      List.append_assoc, List.flatMap_append]
    exact List.prefix_append (rv32ITable ++ rv32MTable) _
  | false =>
    simp only [enabledExts, Seed.when, base, mul, width, Bool.false_eq_true, if_false, if_true,
      List.nil_append, List.append_assoc, List.flatMap_append]
    exact List.prefix_append rv32MTable _

omit mul in
theorem basePlan_mul (base extension : List RevInstEntry)
    (first : (if isModeEnabled feature .RV_I then base else []) ++ extension <+:
      (enabledExts feature).flatMap fun call => call.1.table)
    (exec : RevInst → ImplFunc → Option Plan) (insn : Insn) (func : ImplFunc)
    (listed : mulListed base extension insn.op func = true) :
    ∃ inst, Carries insn inst ∧
      basePlan exec feature coProc junk (encode insn) = exec inst func := by
  obtain ⟨alone, behind⟩ := (Bool.and_eq_true _ _).mp listed
  have found : rowWith ((if isModeEnabled feature .RV_I then base else []) ++ extension) insn.op
      (named func) = true := by
    cases isModeEnabled feature .RV_I with
    | true => exact behind
    | false => exact alone
  obtain ⟨row, inst, -, name, -, carries, ran⟩ :=
    basePlan_row feature exec coProc junk insn _ (named func) first found
  rw [of_decide_eq_true name] at ran
  exact ⟨inst, carries, ran⟩

end Rows

theorem listed_wide (op : MulOp) : mulListed (rv32ITable ++ rv64ITable) (rv32MTable ++ rv64MTable)
    (.r op.toROp) (mulFunc op) = true := by
  cases op <;> decide

theorem listed_narrow (op : MulOp) (narrow : op ≠ .mulw) :
    mulListed rv32ITable rv32MTable (.r op.toROp) (mulFunc op) = true := by
  cases op <;> first | decide | exact absurd rfl narrow

section Meaning
variable (inst : RevInst) (op : MulOp) (rd rs1 rs2 : BitVec 5)
variable (carries : Carries (.r op.toROp rd rs1 rs2) inst)
include carries

theorem wide_meaning (wide : isRV32 feature = false) :
    ∃ plan, execMul overshift feature regs inst (mulFunc op) = some plan ∧
      (Means plan (isaStep rv64 4 regs (.int (.r op.toROp rd rs1 rs2))) ↔
        rd = 0 ∨ WideKept op (reg rv64 regs rs1) (reg rv64 regs rs2)) := by
  obtain ⟨dest, left, right, -, size, -⟩ := carries
  cases op with
  | mul =>
    refine ⟨_, rfl, iff_of_true ?_ (.inr trivial)⟩
    rw [mul_wide feature regs inst rd rs1 rs2 size dest left right wide]
    exact (means_done_iff _ _).mpr rfl
  | mulh =>
    refine ⟨_, rfl, iff_of_true ?_ (.inr trivial)⟩
    rw [mulh_wide feature regs inst rd rs1 rs2 size dest left right wide]
    exact (means_done_iff _ _).mpr rfl
  | mulhu =>
    refine ⟨_, rfl, iff_of_true ?_ (.inr trivial)⟩
    rw [mulhu_wide feature regs inst rd rs1 rs2 size dest left right wide overshift]
    exact (means_done_iff _ _).mpr rfl
  | mulw =>
    refine ⟨_, rfl, iff_of_true ?_ (.inr trivial)⟩
    rw [mulw_wide regs inst rd rs1 rs2 size dest left right]
    exact (means_done_iff _ _).mpr rfl
  | mulhsu =>
    refine ⟨_, congrArg some
      (mulhsu_wide feature regs inst rd rs1 rs2 size dest left right wide overshift), ?_⟩
    refine (means_done_iff _ _).trans ((retire_iff regs rd _ _).trans (or_congr Iff.rfl ?_))
    rw [WideKept, ← mixed_iff]
    simp only [MulOp.toROp, rValue, highHalf, high_mixed]

theorem narrow_meaning (narrow : isRV32 feature = true) (word : op ≠ .mulw) :
    ∃ plan, execMul overshift feature regs inst (mulFunc op) = some plan ∧
      (Means plan (isaStep rv32 4 regs (.int (.r op.toROp rd rs1 rs2))) ↔
        rd = 0 ∨ NarrowKept overshift op (reg rv32 regs rs1) (reg rv32 regs rs2)) := by
  obtain ⟨dest, left, right, -, size, -⟩ := carries
  cases op with
  | mulw => exact absurd rfl word
  | mul =>
    refine ⟨_, rfl, iff_of_true ?_ (.inr trivial)⟩
    rw [mul_narrow feature regs inst rd rs1 rs2 size dest left right narrow]
    exact (means_done_iff _ _).mpr rfl
  | mulh =>
    refine ⟨_, congrArg some (mulh_narrow feature regs inst rd size dest narrow), ?_⟩
    refine (means_done_iff _ _).trans ((retire_iff_narrow regs rd _ _).trans (or_congr Iff.rfl ?_))
    simp only [MulOp.toROp, rValue, highHalf, high_signed, NarrowKept]
    exact high_zero_iff _ _
  | mulhsu =>
    refine ⟨_, congrArg some
      (mulhsu_narrow feature regs inst rd rs1 rs2 size dest left right narrow overshift), ?_⟩
    refine (means_done_iff _ _).trans ((retire_iff_narrow regs rd _ _).trans (or_congr Iff.rfl ?_))
    simp only [MulOp.toROp, rValue, highHalf, high_mixed, NarrowKept]
    rfl
  | mulhu =>
    refine ⟨_, congrArg some
      (mulhu_narrow feature regs inst rd rs1 rs2 size dest left right narrow overshift), ?_⟩
    refine (means_done_iff _ _).trans ((retire_iff_narrow regs rd _ _).trans (or_congr Iff.rfl ?_))
    have whole : high 32 ((reg rv32 regs rs1).toNat * (reg rv32 regs rs2).toNat) =
        BitVec.ofNat 32 ((reg rv32 regs rs1).toNat * (reg rv32 regs rs2).toNat / 2 ^ 32) := by
      rw [← BitVec.ofInt_natCast, high]
      push_cast
      rfl
    simp only [MulOp.toROp, rValue, highHalf, high_unsigned, NarrowKept, whole]

end Meaning
include mul in
theorem wide_meets_iff (wide : feature.xlen = 64) (op : MulOp) (rd rs1 rs2 : BitVec 5) :
    BaseAgrees rv64 (execMul overshift feature regs) feature coProc junk regs
        (.r op.toROp rd rs1 rs2) ↔
      rd = 0 ∨ WideKept op (reg rv64 regs rs1) (reg rv64 regs rs2) := by
  have rv : isRV32 feature = false := by simp [isRV32, wide]
  obtain ⟨inst, carries, decoded⟩ := basePlan_mul feature coProc junk _ _
    (mul_rows_wide feature mul wide) (execMul overshift feature regs) (.r op.toROp rd rs1 rs2)
    (mulFunc op) (listed_wide op)
  obtain ⟨plan, ran, meaning⟩ := wide_meaning overshift feature regs inst op rd rs1 rs2 carries rv
  simp only [BaseAgrees, decoded, ran, Option.some.injEq, exists_eq_left', meaning]

include mul in
/-- The multiply instructions, with any operands and registers: on RV64 all but mulhsu, on RV32 mul
alone mean what the manual says of them unconditionally. -/
theorem multiply_meets_isa_iff (op : MulOp) (rd rs1 rs2 : BitVec 5) :
    (feature.xlen = 64 →
      (BaseAgrees rv64 (execMul overshift feature regs) feature coProc junk regs
        (.r op.toROp rd rs1 rs2) ↔
        rd = 0 ∨ WideKept op (reg rv64 regs rs1) (reg rv64 regs rs2))) ∧
    (feature.xlen = 32 → op ≠ .mulw →
      (BaseAgrees rv32 (execMul overshift feature regs) feature coProc junk regs
        (.r op.toROp rd rs1 rs2) ↔
        rd = 0 ∨ NarrowKept overshift op (reg rv32 regs rs1) (reg rv32 regs rs2))) := by
  constructor
  · intro wide
    exact wide_meets_iff overshift feature coProc junk regs mul wide op rd rs1 rs2
  · intro narrow word
    have rv : isRV32 feature = true := by simp [isRV32, narrow]
    obtain ⟨inst, carries, decoded⟩ := basePlan_mul feature coProc junk _ _
      (mul_rows_narrow feature mul narrow) (execMul overshift feature regs)
      (.r op.toROp rd rs1 rs2) (mulFunc op) (listed_narrow op word)
    obtain ⟨plan, ran, meaning⟩ :=
      narrow_meaning overshift feature regs inst op rd rs1 rs2 carries rv word
    simp only [BaseAgrees, decoded, ran, Option.some.injEq, exists_eq_left', meaning]

-- mulhu on RV64: the largest operands.
theorem multiply_meets_isa_iff_mulhu :
    BaseAgrees rv64
      (execMul (fun _ => 0) { features := 6, xlen := 64, minCost := 1, maxCost := 1 }
        { (default : RevRegFile) with rv64 := fun _ => -1 })
      { features := 6, xlen := 64, minCost := 1, maxCost := 1 } none default
      { (default : RevRegFile) with rv64 := fun _ => -1 } (.r MulOp.mulhu.toROp 5 5 6) :=
  ((multiply_meets_isa_iff (fun _ => 0) { features := 6, xlen := 64, minCost := 1, maxCost := 1 }
    none default { (default : RevRegFile) with rv64 := fun _ => -1 } (by decide) .mulhu 5 5 6).1
    rfl).mpr (.inr trivial)

/-- mulhsu x5, x6, x7 on x6 = 2^33 and x7 = 2^62: the high half is 2^31. -/
theorem multiply_mulhsu_extended :
    ¬ BaseAgrees rv64
      (execMul (fun _ => 0) { features := 6, xlen := 64, minCost := 1, maxCost := 1 }
        { (default : RevRegFile) with rv64 := fun index => if index = 6 then 2 ^ 33 else 2 ^ 62 })
      { features := 6, xlen := 64, minCost := 1, maxCost := 1 } none default
      { (default : RevRegFile) with rv64 := fun index => if index = 6 then 2 ^ 33 else 2 ^ 62 }
      (.r MulOp.mulhsu.toROp 5 6 7) := by
  rw [wide_meets_iff _ _ _ _ _ (by decide) rfl]
  rintro (zero | kept)
  · exact absurd zero (by decide)
  · exact absurd (show MixedKept (2 ^ 33) (2 ^ 62) from kept) (by decide)

end Agreement
end RevCPU.Multiply
