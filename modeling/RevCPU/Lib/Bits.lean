import Mathlib.Data.BitVec
import Mathlib.Tactic.IntervalCases
import Mathlib.Tactic.Linarith
import Mathlib.Tactic.Positivity
namespace Bits
/-! Bit fields of machine words: a shift and a mask read a field, a field of a concatenation is a
field of one of its parts, and the xor-subtract idiom extends the sign of a narrow value. -/
variable {w v : Nat}

theorem shift_mask (x : BitVec w) (start len : Nat) :
    (x >>> start) &&& BitVec.ofNat w (2 ^ len - 1) = (x.extractLsb' start len).setWidth w := by
  apply BitVec.eq_of_getLsbD_eq
  intro i inside
  simp only [BitVec.getLsbD_and, BitVec.getLsbD_ushiftRight, BitVec.getLsbD_ofNat,
    BitVec.getLsbD_setWidth, BitVec.getLsbD_extractLsb', Nat.testBit_two_pow_sub_one]
  simp [inside, Bool.and_comm]

theorem mask_shift (x : BitVec w) (start len : Nat) :
    (x &&& BitVec.ofNat w ((2 ^ len - 1) * 2 ^ start)) >>> start =
      (x.extractLsb' start len).setWidth w := by
  apply BitVec.eq_of_getLsbD_eq
  intro i inside
  simp only [BitVec.getLsbD_and, BitVec.getLsbD_ushiftRight, BitVec.getLsbD_ofNat,
    BitVec.getLsbD_setWidth, BitVec.getLsbD_extractLsb', Nat.testBit_mul_two_pow,
    Nat.testBit_two_pow_sub_one]
  by_cases reach : start + i < w
  · simp [inside, reach, Bool.and_comm]
  · simp [BitVec.getLsbD_of_ge x (start + i) (by omega)]

/-- A mask of ones above the lowest bits clears these. -/
theorem clear_low (x : BitVec w) (count : Nat) :
    x &&& (BitVec.allOnes w <<< count) = x >>> count <<< count := by
  apply BitVec.eq_of_getLsbD_eq
  intro i inside
  simp only [BitVec.getLsbD_and, BitVec.getLsbD_shiftLeft, BitVec.getLsbD_ushiftRight,
    BitVec.getLsbD_allOnes]
  by_cases low : i < count
  · simp [low]
  · have sum : count + (i - count) = i := by omega
    have high : i - count < w := by omega
    simp [low, inside, sum, high]

-- Two words that agree on a mask agree on every part of it.
theorem masked_congr (x y whole part : BitVec w) (same : x &&& whole = y &&& whole)
    (inside : whole &&& part = part) : x &&& part = y &&& part := by
  rw [← inside, ← BitVec.and_assoc, ← BitVec.and_assoc, same]

-- Masking with two disjoint parts or with the first alone: the same exactly without the second.
theorem and_part_iff (a kept lost : BitVec w) (apart : kept &&& lost = 0) :
    a &&& kept = a &&& (kept ||| lost) ↔ a &&& lost = 0 := by
  rw [BitVec.and_or_distrib_left]
  constructor
  · intro same
    have part := congrArg (· &&& lost) same
    simp only [BitVec.and_or_distrib_right, BitVec.and_assoc, apart, BitVec.and_self] at part
    simpa using part.symm
  · intro zero
    simp [zero]

-- Reading a field that lies in the high or in the low part of a concatenation.
theorem field_append_high (high : BitVec v) (low : BitVec w) (start len : Nat)
    (above : w ≤ start) :
    (high ++ low).extractLsb' start len = high.extractLsb' (start - w) len :=
  BitVec.extractLsb'_append_eq_of_le above

theorem field_append_low (high : BitVec v) (low : BitVec w) (start len : Nat)
    (below : start + len ≤ w) :
    (high ++ low).extractLsb' start len = low.extractLsb' start len :=
  BitVec.extractLsb'_append_eq_of_add_le below

theorem setWidth_inj (x y : BitVec v) (fits : v ≤ w) : x.setWidth w = y.setWidth w ↔ x = y := by
  constructor
  · intro same
    have back := congrArg (fun z => z.setWidth v) same
    simpa [BitVec.setWidth_setWidth_of_le _ fits] using back
  · rintro rfl
    rfl

theorem setWidth_signExtend {n : Nat} (x : BitVec v) (fits : n ≤ w) :
    (x.signExtend w).setWidth n = x.signExtend n := by
  apply BitVec.eq_of_getLsbD_eq
  intro i inside
  have reach : i < w := by omega
  simp only [BitVec.getLsbD_setWidth, BitVec.getLsbD_signExtend, inside, reach, decide_true,
    Bool.true_and]

theorem signExtend_inj (x y : BitVec v) (fits : v ≤ w) :
    x.signExtend w = y.signExtend w ↔ x = y := by
  constructor
  · intro same
    have back := congrArg (fun z => z.setWidth v) same
    simpa [setWidth_signExtend _ fits] using back
  · rintro rfl
    rfl

theorem signExtend_signExtend {n : Nat} (x : BitVec v) (positive : 0 < v) (inner : v ≤ n) :
    (x.signExtend n).signExtend w = x.signExtend w := by
  apply BitVec.eq_of_getLsbD_eq
  intro i inside
  have sign : (x.signExtend n).msb = x.msb := by
    rw [BitVec.msb_eq_getLsbD_last (x.signExtend n), BitVec.getLsbD_signExtend]
    by_cases same : v = n
    · simp [← same, BitVec.msb_eq_getLsbD_last, positive]
    · simp [show n - 1 < n by omega, show ¬ n - 1 < v by omega]
  rw [BitVec.getLsbD_signExtend, BitVec.getLsbD_signExtend, BitVec.getLsbD_signExtend, sign]
  by_cases low : i < v
  · simp [low, inside, show i < n by omega]
  · by_cases reach : i < n <;> simp [low, inside, reach]

theorem setWidth_eq_signExtend_iff (x : BitVec v) (wider : v < w) :
    x.setWidth w = x.signExtend w ↔ x.msb = false := by
  constructor
  · intro same
    have top := congrArg (fun y => y.getLsbD v) same
    simp only [BitVec.getLsbD_setWidth, BitVec.getLsbD_signExtend] at top
    simpa [wider] using top
  · intro plain
    exact (BitVec.signExtend_eq_setWidth_of_msb_false plain).symm

theorem msb_append_zero (x : BitVec v) (k : Nat) (positive : 0 < v) :
    (x ++ 0#k).msb = x.msb := by
  simp [BitVec.msb_append, show v ≠ 0 by omega]

-- Extending above appended zeros is extending the whole.
theorem signExtend_append_zero {n : Nat} (x : BitVec v) (k : Nat) (positive : 0 < v) :
    x.signExtend n ++ 0#k = (x ++ 0#k).signExtend (n + k) := by
  apply BitVec.eq_of_getLsbD_eq
  intro i inside
  simp only [BitVec.getLsbD_append, BitVec.getLsbD_signExtend, msb_append_zero x k positive,
    BitVec.getLsbD_zero]
  by_cases low : i < k
  · simp [low, inside, show i < v + k by omega]
  · by_cases reach : i - k < v
    · simp [low, inside, reach, show i < v + k by omega, show i - k < n by omega]
    · simp [low, inside, reach, show ¬ i < v + k by omega, show i - k < n by omega]

/-- `(x ^ (1 << (b-1))) - (1 << (b-1))`, the branch-free sign extension from bit `b - 1`. -/
def xorSub (x : BitVec w) (b : Nat) : BitVec w :=
  (x ^^^ BitVec.twoPow w (b - 1)) - BitVec.twoPow w (b - 1)

theorem xor_twoPow (x : BitVec w) (i : Nat) :
    x ^^^ BitVec.twoPow w i =
      if x.getLsbD i then x - BitVec.twoPow w i else x + BitVec.twoPow w i := by
  have clear : ∀ y : BitVec w, y.getLsbD i = false →
      y ^^^ BitVec.twoPow w i = y + BitVec.twoPow w i := by
    intro y off
    have disjoint : y &&& BitVec.twoPow w i = 0#w := by simp [BitVec.and_twoPow, off]
    rw [BitVec.add_eq_or_of_and_eq_zero y _ disjoint]
    apply BitVec.eq_of_getLsbD_eq
    intro j inside
    have apart := congrArg (fun z => z.getLsbD j) disjoint
    simp only [BitVec.getLsbD_and, BitVec.getLsbD_zero] at apart
    simp only [BitVec.getLsbD_xor, BitVec.getLsbD_or]
    cases left : y.getLsbD j <;> cases right : (BitVec.twoPow w i).getLsbD j <;> simp_all
  by_cases on : x.getLsbD i = true
  · have inside : i < w := BitVec.lt_of_getLsbD on
    have flipped := clear (x ^^^ BitVec.twoPow w i) (by simp [on, inside])
    rw [BitVec.xor_assoc, BitVec.xor_self, BitVec.xor_zero] at flipped
    rw [if_pos on]
    exact (BitVec.eq_sub_iff_add_eq).mpr flipped.symm
  · rw [if_neg on]
    exact clear x (by simpa using on)

/-- On a value of at most `b` bits the idiom is sign extension from width `b`. -/
theorem xorSub_setWidth (x : BitVec v) (positive : 0 < v) (fits : v ≤ w) :
    xorSub (x.setWidth w) v = x.signExtend w := by
  have top : (x.setWidth w).getLsbD (v - 1) = x.msb := by
    have inside : v - 1 < w := by omega
    simp [BitVec.msb_eq_getLsbD_last, inside]
  unfold xorSub
  rw [xor_twoPow, top]
  apply BitVec.eq_of_toNat_eq
  have low : x.toNat < 2 ^ v := x.isLt
  have wide : 2 ^ v ≤ 2 ^ w := Nat.pow_le_pow_right (by decide) fits
  have half : 2 ^ (v - 1) * 2 = 2 ^ v := by rw [← Nat.pow_succ]; congr 1; omega
  have bit : BitVec.toNat (BitVec.twoPow w (v - 1)) = 2 ^ (v - 1) := by
    rw [BitVec.toNat_twoPow, Nat.mod_eq_of_lt]
    exact Nat.pow_lt_pow_right (by decide) (by omega)
  rw [BitVec.toNat_signExtend]
  cases sign : x.msb with
  | false =>
    simp only [Bool.false_eq_true, ↓reduceIte, BitVec.add_sub_cancel, Nat.add_zero]
  | true =>
    have high : 2 ^ (v - 1) ≤ x.toNat := by
      have := BitVec.msb_eq_decide x
      rw [sign] at this
      simpa using this.symm
    simp only [↓reduceIte, BitVec.toNat_sub, bit, BitVec.toNat_setWidth,
      Nat.mod_eq_of_lt (lt_of_lt_of_le low wide)]
    have inner : (2 ^ w - 2 ^ (v - 1) + x.toNat) % 2 ^ w = x.toNat - 2 ^ (v - 1) := by
      rw [show 2 ^ w - 2 ^ (v - 1) + x.toNat = x.toNat - 2 ^ (v - 1) + 2 ^ w by omega,
        Nat.add_mod_right, Nat.mod_eq_of_lt (by omega)]
    rw [inner, Nat.mod_eq_of_lt (by omega)]
    omega

/-- A signed comparison is decided by the upper halves, and by the lower ones where those agree. -/
theorem slt_append (high other : BitVec v) (low rest : BitVec w) (positive : 0 < v) :
    (high ++ low).slt (other ++ rest) =
      if high = other then low.ult rest else high.slt other := by
  have below : (low.toNat : Int) < 2 ^ w := by exact_mod_cast low.isLt
  have bounded : (rest.toNat : Int) < 2 ^ w := by exact_mod_cast rest.isLt
  have nonzero : ¬ v = 0 := by omega
  simp only [BitVec.slt, BitVec.ult, BitVec.toInt_append, beq_iff_eq, if_neg nonzero]
  by_cases same : high = other
  · subst same
    simp only [if_true, Int.add_lt_add_iff_left, Nat.cast_lt]
  · rw [if_neg same, decide_eq_decide]
    have apart : high.toInt ≠ other.toInt := fun equal => same (BitVec.eq_of_toInt_eq equal)
    rcases lt_or_gt_of_ne apart with less | more
    · refine iff_of_true ?_ less
      have gap : (2 : Int) ^ w * (high.toInt + 1) ≤ 2 ^ w * other.toInt :=
        mul_le_mul_of_nonneg_left less (by positivity)
      linarith
    · refine iff_of_false ?_ (not_lt.mpr more.le)
      have gap : (2 : Int) ^ w * (other.toInt + 1) ≤ 2 ^ w * high.toInt :=
        mul_le_mul_of_nonneg_left more (by positivity)
      linarith

end Bits
