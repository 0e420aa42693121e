import Mathlib.Data.BitVec
import Mathlib.Tactic.Linarith
import Mathlib.Tactic.Ring
namespace Division
/-! Quotient and remainder of machine words. The remainder that belongs to a quotient is determined
by the dividend, and dividing the extensions of narrow words is extending their quotient. -/
variable {n w : Nat}

/-- `r` is what the division of `a` by `b` with the quotient `q` leaves, signed. -/
def SignedRemainder (a b q r : BitVec n) : Prop :=
  if b = 0 then r = a
  else if a = BitVec.intMin n ∧ b = -1 then r = 0
  else a.toInt = q.toInt * b.toInt + r.toInt ∧ r.toInt.natAbs < b.toInt.natAbs ∧
    (r.toInt ≠ 0 → (r.toInt < 0 ↔ a.toInt < 0))

def UnsignedRemainder (a b q r : BitVec n) : Prop :=
  if b = 0 then r = a
  else a.toNat = q.toNat * b.toNat + r.toNat ∧ r.toNat < b.toNat

section Remainder
variable (a b r : BitVec n)

theorem unsigned_iff : UnsignedRemainder a b (a / b) r ↔ r = if b = 0 then a else a % b := by
  rw [UnsignedRemainder]
  by_cases zero : b = 0
  · rw [if_pos zero, if_pos zero]
  · have positive : 0 < b.toNat := by
      apply Nat.pos_of_ne_zero
      intro none
      exact zero (BitVec.eq_of_toNat_eq none)
    have whole := Nat.div_add_mod' a.toNat b.toNat
    rw [if_neg zero, if_neg zero, ← BitVec.toNat_inj, BitVec.toNat_udiv, BitVec.toNat_umod]
    constructor
    · rintro ⟨sum, -⟩
      omega
    · intro same
      rw [same]
      exact ⟨whole.symm, Nat.mod_lt _ positive⟩

-- The sign of a truncating remainder is the dividend's.
theorem tmod_sign (x y : Int) (nonzero : x.tmod y ≠ 0) : x.tmod y < 0 ↔ x < 0 := by
  constructor
  · intro negative
    by_contra nonnegative
    have above := Int.tmod_nonneg y (not_lt.mp nonnegative)
    omega
  · intro negative
    have above := Int.tmod_nonneg (a := -x) y (by omega)
    rw [Int.neg_tmod] at above
    omega

theorem srem_neg_one : a.srem (-1) = 0 := by
  rcases Nat.eq_zero_or_pos n with rfl | positive
  · exact BitVec.eq_of_zero_length rfl
  · have unit : (-1 : BitVec n).toInt = -1 := by
      have ones : (-1 : BitVec n) = BitVec.allOnes n := BitVec.neg_one_eq_allOnes
      rw [ones, BitVec.toInt_allOnes, if_pos positive]
    apply BitVec.toInt_inj.mp
    rw [BitVec.toInt_srem, unit, Int.tmod_neg, Int.tmod_one]
    exact BitVec.toInt_zero.symm

theorem signed_iff : SignedRemainder a b (a.sdiv b) r ↔ r = if b = 0 then a else a.srem b := by
  rw [SignedRemainder]
  by_cases zero : b = 0
  · rw [if_pos zero, if_pos zero]
  · rw [if_neg zero, if_neg zero]
    have nonzero : b.toInt ≠ 0 := by
      intro none
      exact zero (BitVec.toInt_inj.mp (none.trans BitVec.toInt_zero.symm))
    by_cases overflow : a = BitVec.intMin n ∧ b = -1
    · rw [if_pos overflow, overflow.2, srem_neg_one]
    · have quotient : (a.sdiv b).toInt = a.toInt.tdiv b.toInt := by
        apply BitVec.toInt_sdiv_of_ne_or_ne
        by_contra both
        rw [not_or, not_not, not_not] at both
        exact overflow both
      have whole := Int.tdiv_mul_add_tmod a.toInt b.toInt
      rw [if_neg overflow, quotient, ← BitVec.toInt_inj, BitVec.toInt_srem]
      constructor
      · rintro ⟨sum, -⟩
        linarith
      · intro same
        rw [same, Int.natAbs_tmod]
        exact ⟨whole.symm, Nat.mod_lt _ (by omega), tmod_sign _ _⟩

end Remainder

section Extension
variable (a b : BitVec n) (positive : 0 < n) (wider : n < w)
include wider

theorem srem_signExtend : (a.signExtend w).srem (b.signExtend w) = (a.srem b).signExtend w := by
  apply BitVec.toInt_inj.mp
  rw [BitVec.toInt_srem, BitVec.toInt_signExtend_of_le (by omega),
    BitVec.toInt_signExtend_of_le (by omega), BitVec.toInt_signExtend_of_le (by omega),
    BitVec.toInt_srem]

omit b in
include positive in
theorem signExtend_ne_intMin : a.signExtend w ≠ BitVec.intMin w := by
  intro least
  have value := congrArg BitVec.toInt least
  rw [BitVec.toInt_signExtend_of_le (by omega), BitVec.toInt_intMin_of_pos (by omega)] at value
  have bound := BitVec.le_toInt a
  have power : (2 : Int) ^ (n - 1) < 2 ^ (w - 1) :=
    pow_lt_pow_right₀ (by norm_num) (by omega)
  omega

include positive in
-- Only the quotient that does not fit its own width would differ.
theorem sdiv_signExtend (fits : a ≠ BitVec.intMin n ∨ b ≠ -1) :
    (a.signExtend w).sdiv (b.signExtend w) = (a.sdiv b).signExtend w := by
  apply BitVec.toInt_inj.mp
  rw [BitVec.toInt_sdiv_of_ne_or_ne _ _ (.inl (signExtend_ne_intMin a positive wider)),
    BitVec.toInt_signExtend_of_le (by omega), BitVec.toInt_signExtend_of_le (by omega),
    BitVec.toInt_signExtend_of_le (by omega), BitVec.toInt_sdiv_of_ne_or_ne _ _ fits]

theorem udiv_setWidth : a.setWidth w / b.setWidth w = (a / b).setWidth w := by
  apply BitVec.eq_of_toNat_eq
  rw [BitVec.toNat_udiv, BitVec.toNat_setWidth_of_le (by omega),
    BitVec.toNat_setWidth_of_le (by omega), BitVec.toNat_setWidth_of_le (by omega),
    BitVec.toNat_udiv]

theorem umod_setWidth : a.setWidth w % b.setWidth w = (a % b).setWidth w := by
  apply BitVec.eq_of_toNat_eq
  rw [BitVec.toNat_umod, BitVec.toNat_setWidth_of_le (by omega),
    BitVec.toNat_setWidth_of_le (by omega), BitVec.toNat_setWidth_of_le (by omega),
    BitVec.toNat_umod]

end Extension
end Division
