import Mathlib.Data.BitVec
/-!
A word as a sign bit above its magnitude bits, and what masking, flipping and merging the top bit
does to the two parts.
-/
namespace SignBit
variable {n : Nat} (a b : BitVec (n + 1))

def top (n : Nat) : BitVec (n + 1) := BitVec.twoPow (n + 1) n

/-- The magnitude bits of a word under a chosen sign. -/
def inject (sign : Bool) : BitVec (n + 1) := BitVec.cons sign (a.setWidth n)

theorem eq_inject_iff (sign : Bool) :
    a = inject b sign ↔ a.msb = sign ∧ a.setWidth n = b.setWidth n := by
  constructor
  · rintro rfl
    exact ⟨BitVec.msb_cons, BitVec.setWidth_cons⟩
  · rintro ⟨rfl, low⟩
    rw [inject, ← low]
    exact (BitVec.cons_msb_setWidth a).symm

theorem inject_inj (sign other : Bool) : inject a sign = inject a other ↔ sign = other := by
  constructor
  · intro same
    have left : (inject a sign).msb = sign := BitVec.msb_cons
    have right : (inject a other).msb = other := BitVec.msb_cons
    rw [← left, same, right]
  · rintro rfl
    rfl

@[simp] theorem msb_top : (top n).msb = true := by
  rw [top, BitVec.msb_twoPow]
  simp

@[simp] theorem setWidth_top : (top n).setWidth n = 0#n := by
  apply BitVec.eq_of_getLsbD_eq
  intro i inside
  rw [BitVec.getLsbD_setWidth, top, BitVec.getLsbD_twoPow]
  simp [show ¬ n = i by omega]

theorem merge : a &&& ~~~(top n) ||| b &&& top n = inject a b.msb := by
  rw [eq_inject_iff]
  constructor <;> simp

/-- Its complement, from the flipped top bit. -/
theorem merge_flipped : a &&& ~~~(top n) ||| (b &&& top n) ^^^ top n = inject a (!b.msb) := by
  rw [eq_inject_iff]
  constructor <;> simp

-- Flipping every other bit leaves the sign alone.
theorem merge_others_flipped :
    a &&& ~~~(top n) ||| (b ^^^ ~~~(top n)) &&& top n = inject a b.msb := by
  rw [eq_inject_iff]
  constructor <;> simp

/-- The exclusive or of both signs, where the sign of the first word is cleared. -/
theorem merge_xor :
    a &&& ~~~(top n) ||| (a &&& top n) ^^^ (b &&& top n) = inject a (a.msb ^^ b.msb) := by
  rw [eq_inject_iff]
  constructor <;> simp

-- Where it is not cleared, the signs are or-ed; where it is cleared first, it plays no part.
theorem merge_xor_kept : a ||| (a &&& top n) ^^^ (b &&& top n) = inject a (a.msb || b.msb) := by
  rw [eq_inject_iff]
  constructor
  · cases sign : a.msb <;> simp [sign]
  · simp

theorem merge_xor_cleared :
    a &&& ~~~(top n) ||| (a &&& ~~~(top n) &&& top n) ^^^ (b &&& top n) = inject a b.msb := by
  rw [eq_inject_iff]
  constructor <;> simp

end SignBit
