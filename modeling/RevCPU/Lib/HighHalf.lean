import Mathlib.Data.BitVec
import Mathlib.Tactic.Linarith
import Mathlib.Tactic.Positivity
import Mathlib.Tactic.Ring
namespace HighHalf
/-! The high half of a product of two words, as the integer product divided by the word's range. The
quotient is rounded down, so one definition serves every signedness, and a product of magnitudes
gives the signed one by a complement and a correction. -/
variable {w : Nat}

/-- The word above the low word of an integer. -/
def high (w : Nat) (product : Int) : BitVec w := BitVec.ofInt w (product / 2 ^ w)

theorem ofInt_eq_iff (x y : Int) : BitVec.ofInt w x = BitVec.ofInt w y ↔ x % 2 ^ w = y % 2 ^ w := by
  have power : ((2 ^ w : Nat) : Int) = 2 ^ w := by push_cast; rfl
  have positive : (2 ^ w : Int) ≠ 0 := by positivity
  have left := Int.emod_nonneg x positive
  have right := Int.emod_nonneg y positive
  rw [← BitVec.toNat_inj, BitVec.toNat_ofInt, BitVec.toNat_ofInt, power]
  omega

-- Dividing the double word's remainder leaves the high word's.
theorem emod_square_ediv (product modulus : Int) (positive : 0 < modulus) :
    product % (modulus * modulus) / modulus = product / modulus % modulus := by
  have whole := Int.mul_ediv_add_emod product (modulus * modulus)
  have split : product / (modulus * modulus) = product / modulus / modulus :=
    (Int.ediv_ediv_of_nonneg (le_of_lt positive)).symm
  have taken : product % (modulus * modulus) =
      product + modulus * -(modulus * (product / modulus / modulus)) := by
    rw [split] at whole
    linarith
  have upper := Int.mul_ediv_add_emod (product / modulus) modulus
  rw [taken, Int.add_mul_ediv_left _ _ (ne_of_gt positive)]
  linarith

theorem extract_ofInt (product : Int) :
    (BitVec.ofInt (w + w) product).extractLsb' w w = high w product := by
  have power : ((2 ^ w : Nat) : Int) = 2 ^ w := by push_cast; rfl
  have double : ((2 ^ (w + w) : Nat) : Int) = 2 ^ w * 2 ^ w := by push_cast; ring
  have positive : (0 : Int) < 2 ^ w := by positivity
  have square : (0 : Int) < 2 ^ w * 2 ^ w := by positivity
  apply BitVec.eq_of_toNat_eq
  rw [BitVec.extractLsb'_toNat, high, BitVec.toNat_ofInt, BitVec.toNat_ofInt, double, power,
    Nat.shiftRight_eq_div_pow]
  zify
  rw [Int.toNat_of_nonneg (Int.emod_nonneg _ (ne_of_gt square)),
    Int.toNat_of_nonneg (Int.emod_nonneg _ (ne_of_gt positive)),
    emod_square_ediv product _ positive, Int.emod_emod]

section Products
variable (a b : BitVec w)

theorem high_signed :
    (a.signExtend (w + w) * b.signExtend (w + w)).extractLsb' w w = high w (a.toInt * b.toInt) := by
  rw [← extract_ofInt, BitVec.ofInt_mul]
  rfl

theorem high_mixed :
    (a.signExtend (w + w) * b.setWidth (w + w)).extractLsb' w w = high w (a.toInt * b.toNat) := by
  have widened : b.setWidth (w + w) = BitVec.ofInt (w + w) b.toNat := by
    rw [BitVec.ofInt_natCast, BitVec.ofNat_toNat]
  rw [widened, ← extract_ofInt, BitVec.ofInt_mul]
  rfl

theorem high_unsigned :
    (a.setWidth (w + w) * b.setWidth (w + w)).extractLsb' w w = high w (a.toNat * b.toNat) := by
  have widened : ∀ x : BitVec w, x.setWidth (w + w) = BitVec.ofInt (w + w) x.toNat := by
    intro x
    rw [BitVec.ofInt_natCast, BitVec.ofNat_toNat]
  rw [widened, widened, ← extract_ofInt, BitVec.ofInt_mul]

end Products

-- The quotient of a negated product is the complement, plus 1 where nothing was rounded off.
theorem high_neg (product : Int) :
    high w (-product) = ~~~high w product + if product % 2 ^ w = 0 then 1 else 0 := by
  have positive : (0 : Int) < 2 ^ w := by positivity
  have whole := Int.mul_ediv_add_emod product (2 ^ w)
  have one : ∀ x : Int, BitVec.ofInt w x + 1 = BitVec.ofInt w (x + 1) := by
    intro x
    rw [BitVec.ofInt_add]
    rfl
  have complement : ~~~high w product = BitVec.ofInt w (-(product / 2 ^ w) - 1) := by
    rw [BitVec.not_eq_neg_add, high, ← BitVec.ofInt_neg]
    apply BitVec.sub_eq_iff_eq_add.mpr
    refine Eq.trans ?_ (one _).symm
    congr 1
    omega
  rw [complement]
  by_cases exact : product % 2 ^ w = 0
  · have quotient : -product / 2 ^ w = -(product / 2 ^ w) :=
      Int.neg_ediv_of_dvd (Int.dvd_of_emod_eq_zero exact)
    rw [if_pos exact, high, quotient, one]
    congr 1
    omega
  · have below := Int.emod_lt_of_pos product positive
    have above := Int.emod_nonneg product (ne_of_gt positive)
    have rest : -product = (2 ^ w - product % 2 ^ w) + 2 ^ w * (-(product / 2 ^ w) - 1) := by
      linarith
    have quotient : -product / 2 ^ w = -(product / 2 ^ w) - 1 := by
      rw [rest, Int.add_mul_ediv_left _ _ (ne_of_gt positive), Int.ediv_eq_zero_of_lt (by omega)
        (by omega), zero_add]
    rw [if_neg exact, high, quotient]
    exact (BitVec.add_zero _).symm

-- A product of two-limb numbers from the four products of their limbs.
theorem limb_product (limb a b : Nat) :
    a % limb * (b % limb) + a / limb * (b % limb) * limb + a % limb * (b / limb) * limb +
      a / limb * (b / limb) * (limb * limb) = a * b := by
  have left := Nat.div_add_mod a limb
  have right := Nat.div_add_mod b limb
  calc
    _ = (limb * (a / limb) + a % limb) * (limb * (b / limb) + b % limb) := by ring
    _ = a * b := by rw [left, right]

end HighHalf
