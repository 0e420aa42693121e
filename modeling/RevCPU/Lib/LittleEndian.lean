import Mathlib.Data.BitVec
/-! The value of consecutive bytes, the first one least significant. -/
namespace LittleEndian

def value (bytes : Nat → BitVec 8) : Nat → Nat
  | 0 => 0
  | len + 1 => value bytes len + (bytes len).toNat * 256 ^ len

theorem value_lt (bytes : Nat → BitVec 8) (len : Nat) : value bytes len < 256 ^ len := by
  induction len with
  | zero => exact Nat.one_pos
  | succ len ih =>
    have top : (bytes len).toNat * 256 ^ len ≤ 255 * 256 ^ len :=
      Nat.mul_le_mul_right _ (Nat.le_of_lt_succ (bytes len).isLt)
    rw [value, pow_succ]
    omega

theorem value_congr (bytes other : Nat → BitVec 8) (len : Nat)
    (agree : ∀ index, index < len → bytes index = other index) :
    value bytes len = value other len := by
  induction len with
  | zero => rfl
  | succ len ih =>
    rw [value, value, agree len (Nat.lt_succ_self len)]
    rw [ih fun index inside => agree index (Nat.lt_succ_of_lt inside)]

/-- The low bytes of a value are the value of the low bytes. -/
theorem value_mod (bytes : Nat → BitVec 8) (len more : Nat) :
    value bytes (len + more) % 256 ^ len = value bytes len := by
  induction more with
  | zero => exact Nat.mod_eq_of_lt (value_lt bytes len)
  | succ more ih =>
    have high : (bytes (len + more)).toNat * 256 ^ (len + more) =
        256 ^ len * ((bytes (len + more)).toNat * 256 ^ more) := by
      rw [pow_add]
      exact Nat.mul_left_comm _ _ _
    rw [← Nat.add_assoc, value, high, Nat.add_mul_mod_self_left, ih]

end LittleEndian
