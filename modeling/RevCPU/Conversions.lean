import RevCPU.RegFile
/-!
td_u32, td_u64, dt_u32 and dt_u64 of RevInstTable.h with their loops, one bit at a time, and the counts by
which they shift: a count from the word's width on would leave the result undefined. The register file's
versions set the mask at once; on every width a caller can ask for the two are the same.
-/
namespace RevCPU.Conversions
open RegFile

/-- A value with the counts of the shifts made for it so far. -/
structure Shifted (w : Nat) where
  value : BitVec w
  shifts : List Nat
deriving DecidableEq, Repr

variable {w : Nat}

-- `for( i=first; i<first+count; i++ ) value |= (1UL<<i)`, where 1UL has 64 bits.
def setBits (word : Shifted w) (first : Nat) : Nat → Shifted w
  | 0 => word
  | count + 1 =>
    setBits ⟨word.value ||| (1#64 <<< first).setWidth w, word.shifts ++ [first]⟩ (first + 1) count

-- `~tmp`, `+= 1` and `*-1`.
def twiceNegated (tmp : BitVec w) : BitVec w := (~~~tmp + 1#w) * (-1#w)

-- `bits-1` in an `unsigned`.
def signBit (bits : Nat) : Nat := (bits + 2 ^ 32 - 1) % 2 ^ 32

/-- The bits from `bits` on are set in place. `widened` is the operand of the test, of 64 bits. -/
def extend (widened : BitVec 64) (binary : BitVec w) (bits : Nat) : Shifted w :=
  let tmp : Shifted w := ⟨binary, [signBit bits]⟩
  if 0 < widened &&& 1#64 <<< signBit bits then
    let tmp := setBits tmp bits (w - bits)
    { tmp with value := twiceNegated tmp.value }
  else tmp

def tdU32 (binary : BitVec 32) (bits : Nat) : Shifted 32 := extend (binary.setWidth 64) binary bits

-- The mask is collected from below and inverted.
def tdU64 (binary : BitVec 64) (bits : Nat) : Shifted 64 :=
  if 0 < binary &&& 1#64 <<< signBit bits then
    let sext := setBits ⟨0#64, [signBit bits]⟩ 0 bits
    ⟨twiceNegated (binary ||| ~~~sext.value), sext.shifts⟩
  else ⟨binary, [signBit bits]⟩

-- The argument is an int32_t, so its test extends the sign.
def dtU32 (binary : BitVec 32) (bits : Nat) : Shifted 32 := extend (binary.signExtend 64) binary bits

def dtU64 (binary : BitVec 64) (bits : Nat) : Shifted 64 := extend binary binary bits

section Loop

theorem setBits_shifts (word : Shifted w) (first count : Nat) :
    (setBits word first count).shifts = word.shifts ++ List.range' first count := by
  induction count generalizing word first with
  | zero => simp [setBits]
  | succ count ih => rw [setBits, ih, List.range'_succ, List.append_assoc, List.singleton_append]

theorem getLsbD_setBits (fits : w ≤ 64) (word : Shifted w) (first count i : Nat) (inside : i < w) :
    (setBits word first count).value.getLsbD i =
      (word.value.getLsbD i || decide (first ≤ i ∧ i < first + count)) := by
  induction count generalizing word first with
  | zero => simp [setBits, show ¬ (first ≤ i ∧ i < first) by omega]
  | succ count ih =>
    have one : ((1#64 <<< first).setWidth w).getLsbD i = decide (i = first) := by
      rw [BitVec.getLsbD_setWidth, BitVec.getLsbD_shiftLeft, BitVec.getLsbD_one]
      by_cases below : i < first
      · simp [below, show i ≠ first by omega]
      · simp [below, inside, show i < 64 by omega, show i - first = 0 ↔ i = first by omega]
    rw [setBits, ih, BitVec.getLsbD_or, one, Bool.or_assoc, ← Bool.decide_or]
    congr 2
    apply propext
    omega

theorem twiceNegated_eq (tmp : BitVec w) : twiceNegated tmp = tmp := by
  rw [twiceNegated, ← BitVec.neg_eq_not_add, BitVec.mul_neg, BitVec.neg_mul, BitVec.mul_one,
    BitVec.neg_neg]

end Loop

section Bodies
variable {bits : Nat} (positive : 1 ≤ bits)
include positive

theorem signBit_eq (fits : bits ≤ 64) : signBit bits = bits - 1 := by
  unfold signBit
  omega

theorem tested_iff (fits : bits ≤ 64) (x : BitVec 64) :
    0 < x &&& 1#64 <<< signBit bits ↔ x.getLsbD (bits - 1) = true := by
  rw [signBit_eq positive fits, ← BitVec.twoPow_eq, BitVec.and_twoPow]
  cases x.getLsbD (bits - 1) with
  | false => simp
  | true =>
    rw [if_pos rfl]
    refine iff_of_true ?_ rfl
    rw [BitVec.lt_def, BitVec.toNat_twoPow, Nat.mod_eq_of_lt (Nat.pow_lt_pow_right (by decide) (by omega))]
    exact Nat.pow_pos (by decide)

-- The operand of the test has the tested bit of the argument.
theorem extend_eq (wide : w ≤ 64) (fits : bits ≤ w) {widened : BitVec 64} {binary : BitVec w}
    (same : widened.getLsbD (bits - 1) = binary.getLsbD (bits - 1)) :
    (extend widened binary bits).value = twosComplement binary bits := by
  have tested := tested_iff positive (Nat.le_trans fits wide) widened
  rw [same] at tested
  rw [twosComplement_eq, extend]
  by_cases sign : binary.getLsbD (bits - 1) = true
  · rw [if_pos (tested.mpr sign), if_pos sign]
    refine (twiceNegated_eq _).trans ?_
    apply BitVec.eq_of_getLsbD_eq
    intro i inside
    rw [getLsbD_setBits wide _ _ _ _ inside, BitVec.getLsbD_or, BitVec.getLsbD_shiftLeft,
      BitVec.getLsbD_allOnes]
    by_cases low : i < bits
    · simp [low]
    · simp [low, inside, show bits ≤ i by omega, show i < bits + (w - bits) by omega,
        show i - bits < w by omega]
  · rw [if_neg (fun hit => sign (tested.mp hit)), if_neg sign]

-- The count of the test, and those of a loop that ends inside the word.
theorem shifts_inside (fits : bits ≤ w) (wide : w ≤ 64) (value : BitVec w) (first count : Nat)
    (room : first + count ≤ w) :
    ∀ shift ∈ (setBits ⟨value, [signBit bits]⟩ first count).shifts, shift < w := by
  intro shift member
  have tested : signBit bits < w := by
    rw [signBit_eq positive (Nat.le_trans fits wide)]
    omega
  rw [setBits_shifts, List.mem_append, List.mem_singleton, List.mem_range'_1] at member
  omega

theorem extend_shifts (wide : w ≤ 64) (fits : bits ≤ w) (widened : BitVec 64) (binary : BitVec w) :
    ∀ count ∈ (extend widened binary bits).shifts, count < w := by
  unfold extend
  split
  · exact shifts_inside positive fits wide binary bits (w - bits) (by omega)
  · exact shifts_inside positive fits wide binary 0 0 (Nat.zero_le w)

theorem tdU64_eq (fits : bits ≤ 64) (binary : BitVec 64) :
    (tdU64 binary bits).value = RegFile.tdU64 binary bits := by
  have tested := tested_iff positive fits binary
  rw [RegFile.tdU64, twosComplement_eq, tdU64]
  by_cases sign : binary.getLsbD (bits - 1) = true
  · rw [if_pos (tested.mpr sign), if_pos sign]
    refine (twiceNegated_eq _).trans ?_
    congr 1
    apply BitVec.eq_of_getLsbD_eq
    intro i inside
    rw [BitVec.getLsbD_not, getLsbD_setBits (Nat.le_refl 64) _ _ _ _ inside, BitVec.getLsbD_shiftLeft,
      BitVec.getLsbD_allOnes]
    by_cases low : i < bits
    · simp [low]
    · simp [low, inside, show i - bits < 64 by omega]
  · rw [if_neg (fun hit => sign (tested.mp hit)), if_neg sign]

theorem tdU64_shifts (fits : bits ≤ 64) (binary : BitVec 64) :
    ∀ count ∈ (tdU64 binary bits).shifts, count < 64 := by
  unfold tdU64
  split
  · exact shifts_inside positive fits (Nat.le_refl 64) 0#64 0 bits (by omega)
  · exact shifts_inside positive fits (Nat.le_refl 64) binary 0 0 (Nat.zero_le 64)

theorem tdU32_eq (fits : bits ≤ 32) (binary : BitVec 32) :
    (tdU32 binary bits).value = RegFile.tdU32 binary bits := by
  refine extend_eq positive (by decide) fits ?_
  rw [BitVec.getLsbD_setWidth]
  simp [show bits - 1 < 64 by omega]

theorem dtU32_eq (fits : bits ≤ 32) (binary : BitVec 32) :
    (dtU32 binary bits).value = RegFile.dtU32 binary bits := by
  refine extend_eq positive (by decide) fits ?_
  rw [BitVec.getLsbD_signExtend]
  simp [show bits - 1 < 64 by omega, show bits - 1 < 32 by omega]

theorem dtU64_eq (fits : bits ≤ 64) (binary : BitVec 64) :
    (dtU64 binary bits).value = RegFile.dtU64 binary bits :=
  extend_eq positive (by decide) fits rfl

end Bodies

/-- What a conversion to `w` bits returns, whatever the argument and for every number of its bits. -/
structure Exact (w : Nat) (convert : BitVec w → Nat → Shifted w) : Prop where
  signExtends : ∀ bits x, 1 ≤ bits → bits ≤ w → x.toNat < 2 ^ bits →
    (convert x bits).value = (x.setWidth bits).signExtend w
  setsHigh : ∀ bits x, 1 ≤ bits → bits ≤ w → x.getLsbD (bits - 1) = true → ∀ i < w,
    (convert x bits).value.getLsbD i = (x.getLsbD i || decide (bits ≤ i))
  keeps : ∀ bits x, 1 ≤ bits → bits ≤ w → x.getLsbD (bits - 1) = false → (convert x bits).value = x
  shiftsInside : ∀ bits x, 1 ≤ bits → bits ≤ w → ∀ count ∈ (convert x bits).shifts, count < w

theorem Exact.of_twosComplement {convert : BitVec w → Nat → Shifted w}
    (same : ∀ bits x, 1 ≤ bits → bits ≤ w → (convert x bits).value = twosComplement x bits)
    (inside : ∀ bits x, 1 ≤ bits → bits ≤ w → ∀ count ∈ (convert x bits).shifts, count < w) :
    Exact w convert where
  signExtends bits x positive fits small := by
    have whole : (x.setWidth bits).setWidth w = x := by
      apply BitVec.eq_of_toNat_eq
      rw [BitVec.toNat_setWidth, BitVec.toNat_setWidth, Nat.mod_eq_of_lt small, Nat.mod_eq_of_lt x.isLt]
    have extended := twosComplement_setWidth (x.setWidth bits) positive fits
    rw [whole] at extended
    rw [same bits x positive fits, extended]
  setsHigh bits x positive fits sign i below := by
    rw [same bits x positive fits, twosComplement_eq, if_pos sign, BitVec.getLsbD_or,
      BitVec.getLsbD_shiftLeft, BitVec.getLsbD_allOnes]
    by_cases low : i < bits
    · simp [low]
    · simp [low, below, show bits ≤ i by omega, show i - bits < w by omega]
  keeps bits x positive fits sign := by
    rw [same bits x positive fits, twosComplement_eq, sign]
    rfl
  shiftsInside := inside

/-- All four conversions extend the sign, set every bit above a set sign bit, keep an argument whose sign bit
is clear, and shift inside the word. -/
theorem conversions_exact : Exact 32 tdU32 ∧ Exact 64 tdU64 ∧ Exact 32 dtU32 ∧ Exact 64 dtU64 := by
  refine ⟨.of_twosComplement ?_ ?_, .of_twosComplement ?_ ?_, .of_twosComplement ?_ ?_,
    .of_twosComplement ?_ ?_⟩
  · exact fun bits x positive fits => tdU32_eq positive fits x
  · exact fun bits x positive fits => extend_shifts positive (by decide) fits _ x
  · exact fun bits x positive fits => tdU64_eq positive fits x
  · exact fun bits x positive fits => tdU64_shifts positive fits x
  · exact fun bits x positive fits => dtU32_eq positive fits x
  · exact fun bits x positive fits => extend_shifts positive (by decide) fits _ x
  · exact fun bits x positive fits => dtU64_eq positive fits x
  · exact fun bits x positive fits => extend_shifts positive (by decide) fits _ x

end RevCPU.Conversions
