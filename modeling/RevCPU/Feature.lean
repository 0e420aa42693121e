import Mathlib.Data.BitVec
namespace RevCPU.Feature
/-! The machine model of one core: `RevFeature` and its parser. `machine` is the list of the
string's bytes; the latency bounds come from the options and are carried along. -/

inductive RevFeatureType where
  | RV_I | RV_M | RV_A | RV_F | RV_D | RV_C | RV_P
deriving DecidableEq, Repr

/-- The enumeration's values, used as bit positions of `features`. -/
def RevFeatureType.bit : RevFeatureType → Nat
  | .RV_I => 1 | .RV_M => 2 | .RV_A => 3 | .RV_F => 4 | .RV_D => 5 | .RV_C => 6 | .RV_P => 20

structure RevFeature where
  features : BitVec 64
  xlen : Nat
  minCost : BitVec 32
  maxCost : BitVec 32
deriving DecidableEq, Repr

def isModeEnabled (feature : RevFeature) (type : RevFeatureType) : Bool :=
  decide (0 < (feature.features &&& (1#64 <<< type.bit)).toNat)

def isRV32 (feature : RevFeature) : Bool := feature.xlen == 32

def hasCompressed (feature : RevFeature) : Bool := isModeEnabled feature .RV_C

def isRV32D (feature : RevFeature) : Bool := isRV32 feature && isModeEnabled feature .RV_D

def setMachineEntry (feature : RevFeature) (type : RevFeatureType) : RevFeature :=
  { feature with features := feature.features ||| (1#64 <<< type.bit) }

/-- `std::string::find(..) != npos`. -/
def contains (machine pattern : List Char) : Bool :=
  machine.tails.any fun suffix => pattern.isPrefixOf suffix

-- One turn of the loop over the architecture letters; `none` is the rejecting default case.
def parseLetter (feature : RevFeature) : Char → Option RevFeature
  | 'I' => some (setMachineEntry feature .RV_I)
  | 'M' => some (setMachineEntry feature .RV_M)
  | 'A' => some (setMachineEntry feature .RV_A)
  | 'F' => some (setMachineEntry feature .RV_F)
  | 'D' => some (setMachineEntry feature .RV_D)
  | 'G' => some <| [.RV_I, .RV_M, .RV_A, .RV_F, .RV_D].foldl setMachineEntry { feature with xlen := 64 }
  | 'C' => some (setMachineEntry feature .RV_C)
  | 'P' => some (setMachineEntry feature .RV_P)
  | _ => none

/-- The constructor and `ParseMachineModel`; `none` is the fatal parse error. -/
def parseMachineModel (machine : List Char) (minCost maxCost : BitVec 32) : Option RevFeature :=
  if machine.length < 4 then none
  else
    let xlen := if contains machine "RV64".toList then 64
      else if contains machine "RV32".toList then 32 else 64
    (machine.drop 4).foldlM parseLetter
      { features := 0, xlen := xlen, minCost := minCost, maxCost := maxCost }

@[simp] theorem setMachineEntry_xlen (feature : RevFeature) (type : RevFeatureType) :
    (setMachineEntry feature type).xlen = feature.xlen := rfl

theorem isModeEnabled_setMachineEntry (feature : RevFeature) (type other : RevFeatureType) :
    isModeEnabled (setMachineEntry feature type) other =
      (decide (type = other) || isModeEnabled feature other) := by
  have bits : ∀ f : RevFeature, ∀ t, isModeEnabled f t = f.features.getLsbD t.bit := by
    intro f t
    have single : f.features &&& (1#64 <<< t.bit) =
        if f.features.getLsbD t.bit then 1#64 <<< t.bit else 0#64 := by
      rw [← BitVec.twoPow_eq, BitVec.and_twoPow]
    unfold isModeEnabled
    rw [single]
    cases f.features.getLsbD t.bit
    · rfl
    · cases t <;> rfl
  rw [bits, bits]
  cases type <;> cases other <;>
    simp [setMachineEntry, RevFeatureType.bit]

-- Only the two widths the simulator knows survive parsing.
theorem parseLetter_xlen (feature next : RevFeature) (letter : Char)
    (legal : feature.xlen = 32 ∨ feature.xlen = 64)
    (step : parseLetter feature letter = some next) : next.xlen = 32 ∨ next.xlen = 64 := by
  unfold parseLetter at step
  split at step <;> cases step <;> simp_all

theorem parseLetters_xlen (letters : List Char) (feature final : RevFeature)
    (legal : feature.xlen = 32 ∨ feature.xlen = 64)
    (run : letters.foldlM parseLetter feature = some final) :
    final.xlen = 32 ∨ final.xlen = 64 := by
  induction letters generalizing feature with
  | nil => cases run; exact legal
  | cons letter rest ih =>
    obtain ⟨next, step, tail⟩ := Option.bind_eq_some_iff.mp run
    exact ih next (parseLetter_xlen feature next letter legal step) tail

theorem parseMachineModel_xlen (machine : List Char) (minCost maxCost : BitVec 32)
    (feature : RevFeature) (accepted : parseMachineModel machine minCost maxCost = some feature) :
    feature.xlen = 32 ∨ feature.xlen = 64 := by
  unfold parseMachineModel at accepted
  split at accepted
  · cases accepted
  · refine parseLetters_xlen _ _ _ ?_ accepted
    dsimp only
    split
    · exact .inr rfl
    · split
      · exact .inl rfl
      · exact .inr rfl

end RevCPU.Feature
