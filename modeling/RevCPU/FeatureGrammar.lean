import RevCPU.Feature
/-!
The machine strings that ParseMachineModel is meant to take, and those it takes. The prefix is looked for
and never asked for, and the letter G sets the word size.
-/
namespace RevCPU.Feature

def grants : Char → List RevFeatureType
  | 'I' => [.RV_I]
  | 'M' => [.RV_M]
  | 'A' => [.RV_A]
  | 'F' => [.RV_F]
  | 'D' => [.RV_D]
  | 'G' => [.RV_I, .RV_M, .RV_A, .RV_F, .RV_D]
  | 'C' => [.RV_C]
  | 'P' => [.RV_P]
  | _ => []

def Letters (letters : List Char) : Prop := ∀ letter ∈ letters, grants letter ≠ []

instance : DecidablePred Letters := fun letters =>
  List.decidableBAll (fun letter => grants letter ≠ []) letters

inductive Machine : List Char → Nat → List Char → Prop
  | rv32 {letters : List Char} (known : Letters letters) : Machine ("RV32".toList ++ letters) 32 letters
  | rv64 {letters : List Char} (known : Letters letters) : Machine ("RV64".toList ++ letters) 64 letters

section Letters

theorem getLsbD_foldl (types : List RevFeatureType) (feature : RevFeature) (bit : Nat) :
    (types.foldl setMachineEntry feature).features.getLsbD bit = true ↔
      feature.features.getLsbD bit = true ∨ ∃ type ∈ types, type.bit = bit := by
  induction types generalizing feature with
  | nil => simp
  | cons type rest ih =>
    have one : (setMachineEntry feature type).features.getLsbD bit = true ↔
        feature.features.getLsbD bit = true ∨ type.bit = bit := by
      rw [setMachineEntry, BitVec.getLsbD_or, Bool.or_eq_true, ← BitVec.twoPow_eq, BitVec.getLsbD_twoPow]
      have bound : type.bit < 64 := by cases type <;> decide
      simp [bound]
    rw [List.foldl_cons, ih, one, or_assoc]
    apply or_congr_right
    simp

theorem foldl_xlen (types : List RevFeatureType) (feature : RevFeature) :
    (types.foldl setMachineEntry feature).xlen = feature.xlen := by
  induction types generalizing feature with
  | nil => rfl
  | cons type rest ih => exact ih _

def grant (feature : RevFeature) (letter : Char) : RevFeature :=
  (grants letter).foldl setMachineEntry { feature with xlen := if letter = 'G' then 64 else feature.xlen }

theorem parseLetter_eq (feature : RevFeature) (letter : Char) :
    parseLetter feature letter = if grants letter ≠ [] then some (grant feature letter) else none := by
  unfold parseLetter
  split
  case h_9 =>
    have unknown : grants letter = [] := by
      unfold grants
      split
      case h_9 => rfl
      all_goals simp_all
    rw [if_neg (not_not.mpr unknown)]
  all_goals rfl

theorem parseLetters_eq (letters : List Char) (feature : RevFeature) :
    letters.foldlM parseLetter feature =
      if Letters letters then some (letters.foldl grant feature) else none := by
  induction letters generalizing feature with
  | nil => rfl
  | cons letter rest ih =>
    have both : Letters (letter :: rest) ↔ grants letter ≠ [] ∧ Letters rest := List.forall_mem_cons
    rw [List.foldlM_cons, parseLetter_eq]
    by_cases known : grants letter ≠ []
    · rw [if_pos known]
      change rest.foldlM parseLetter (grant feature letter) = _
      rw [ih]
      by_cases others : Letters rest
      · rw [if_pos others, if_pos (both.mpr ⟨known, others⟩)]
        rfl
      · rw [if_neg others, if_neg fun all => others (both.mp all).2]
    · rw [if_neg known, if_neg fun all => known (both.mp all).1]
      rfl

theorem granted_xlen (letters : List Char) (feature : RevFeature) :
    (letters.foldl grant feature).xlen = if 'G' ∈ letters then 64 else feature.xlen := by
  induction letters generalizing feature with
  | nil => rfl
  | cons letter rest ih =>
    rw [List.foldl_cons, ih, grant, foldl_xlen]
    by_cases later : 'G' ∈ rest
    · rw [if_pos later, if_pos (List.mem_cons_of_mem _ later)]
    · rw [if_neg later]
      by_cases here : letter = 'G'
      · rw [if_pos here, if_pos (here ▸ List.mem_cons_self ..)]
      · rw [if_neg here, if_neg]
        intro member
        rcases List.mem_cons.mp member with same | other
        · exact here same.symm
        · exact later other

theorem granted_bit (letters : List Char) (feature : RevFeature) (bit : Nat) :
    (letters.foldl grant feature).features.getLsbD bit = true ↔
      feature.features.getLsbD bit = true ∨ ∃ letter ∈ letters, ∃ type ∈ grants letter, type.bit = bit := by
  induction letters generalizing feature with
  | nil => simp
  | cons letter rest ih =>
    rw [List.foldl_cons, ih, grant, getLsbD_foldl, or_assoc]
    apply or_congr_right
    simp

theorem foldl_costs (types : List RevFeatureType) (feature : RevFeature) :
    (types.foldl setMachineEntry feature).minCost = feature.minCost ∧
      (types.foldl setMachineEntry feature).maxCost = feature.maxCost := by
  induction types generalizing feature with
  | nil => exact ⟨rfl, rfl⟩
  | cons type rest ih => exact ih _

theorem granted_costs (letters : List Char) (feature : RevFeature) :
    (letters.foldl grant feature).minCost = feature.minCost ∧
      (letters.foldl grant feature).maxCost = feature.maxCost := by
  induction letters generalizing feature with
  | nil => exact ⟨rfl, rfl⟩
  | cons letter rest ih =>
    rcases ih (grant feature letter) with ⟨least, most⟩
    rcases foldl_costs (grants letter) { feature with xlen := if letter = 'G' then 64 else feature.xlen } with
      ⟨first, second⟩
    exact ⟨least.trans first, most.trans second⟩

theorem feature_ext {first second : RevFeature} (features : first.features = second.features)
    (xlen : first.xlen = second.xlen) (least : first.minCost = second.minCost)
    (most : first.maxCost = second.maxCost) : first = second := by
  cases first
  cases second
  cases features
  cases xlen
  cases least
  cases most
  rfl

theorem granted_unordered {letters others : List Char} (same : ∀ letter, letter ∈ letters ↔ letter ∈ others)
    (feature : RevFeature) : letters.foldl grant feature = others.foldl grant feature := by
  apply feature_ext
  · apply BitVec.eq_of_getLsbD_eq
    intro bit _
    apply Bool.eq_iff_iff.mpr
    simp only [granted_bit, same]
  · simp only [granted_xlen, same]
  · rw [(granted_costs letters feature).1, (granted_costs others feature).1]
  · rw [(granted_costs letters feature).2, (granted_costs others feature).2]

end Letters

section Prefix

theorem contains_cons (first : Char) (rest pattern : List Char) :
    contains (first :: rest) pattern = (pattern.isPrefixOf (first :: rest) || contains rest pattern) := by
  rw [contains, List.tails_cons]
  rfl

-- No letter of the grammar starts a prefix.
theorem contains_letters {letters : List Char} (known : Letters letters) (rest : List Char) :
    contains letters ('R' :: rest) = false := by
  induction letters with
  | nil => rfl
  | cons letter others ih =>
    have ⟨here, later⟩ := List.forall_mem_cons.mp known
    have apart : 'R' ≠ letter := by
      rintro rfl
      exact here rfl
    rw [contains_cons, ih later, List.isPrefixOf]
    simp [apart]

theorem contains_rv64 (letters : List Char) : contains ("RV64".toList ++ letters) "RV64".toList = true := by
  simp [contains]

theorem contains_rv32 (letters : List Char) : contains ("RV32".toList ++ letters) "RV32".toList = true := by
  simp [contains]

theorem contains_other {letters : List Char} (known : Letters letters) :
    contains ("RV32".toList ++ letters) "RV64".toList = false := by
  have none := contains_letters known ['V', '6', '4']
  change contains ('R' :: 'V' :: '3' :: '2' :: letters) ['R', 'V', '6', '4'] = false
  rw [contains_cons, contains_cons, contains_cons, contains_cons, none]
  rfl

end Prefix

section Exact
variable {machine letters : List Char} {xlen : Nat} {minCost maxCost : BitVec 32}

/-- The parser takes a string as the grammar has it. -/
structure Exact (machine : List Char) (minCost maxCost : BitVec 32) : Prop where
  accepts : (parseMachineModel machine minCost maxCost).isSome = true ↔
    ∃ xlen letters, Machine machine xlen letters
  parsed : ∀ xlen letters feature, Machine machine xlen letters →
    parseMachineModel machine minCost maxCost = some feature → feature.xlen = xlen ∧
      ∀ bit, feature.features.getLsbD bit = true ↔ ∃ letter ∈ letters, ∃ type ∈ grants letter, type.bit = bit
  unordered : ∀ xlen letters other others, Machine machine xlen letters → Machine other xlen others →
    (∀ letter, letter ∈ letters ↔ letter ∈ others) →
      parseMachineModel other minCost maxCost = parseMachineModel machine minCost maxCost

/-- Strings that are turned down, or whose prefix is a word size that no letter changes. -/
def Plain (machine : List Char) : Prop :=
  machine.length < 4 ∨ ¬ Letters (machine.drop 4) ∨ "RV64".toList <+: machine ∨
    "RV32".toList <+: machine ∧ 'G' ∉ machine.drop 4

theorem parse_long (minCost maxCost : BitVec 32) (long : 4 ≤ machine.length)
    (known : Letters (machine.drop 4)) :
    ∃ feature, parseMachineModel machine minCost maxCost = some feature := by
  rw [parseMachineModel, if_neg (Nat.not_lt.mpr long)]
  dsimp only
  rw [parseLetters_eq, if_pos known]
  exact ⟨_, rfl⟩

theorem parse_unknown (unknown : ¬ Letters (machine.drop 4)) :
    parseMachineModel machine minCost maxCost = none := by
  rw [parseMachineModel]
  split
  · rfl
  · rw [parseLetters_eq, if_neg unknown]

theorem parse_machine (word : Machine machine xlen letters) : parseMachineModel machine minCost maxCost =
    some (letters.foldl grant { features := 0, xlen := xlen, minCost := minCost, maxCost := maxCost }) := by
  cases word with
  | rv32 known =>
    rw [parseMachineModel, contains_other known, contains_rv32, if_neg (by simp)]
    change letters.foldlM parseLetter _ = _
    rw [parseLetters_eq, if_pos known]
    rfl
  | rv64 known =>
    rw [parseMachineModel, contains_rv64, if_neg (by simp)]
    change letters.foldlM parseLetter _ = _
    rw [parseLetters_eq, if_pos known]
    rfl

theorem machine_letters (word : Machine machine xlen letters) :
    4 ≤ machine.length ∧ machine.drop 4 = letters ∧ Letters letters := by
  cases word with
  | rv32 known => exact ⟨by simp, List.drop_left' rfl, known⟩
  | rv64 known => exact ⟨by simp, List.drop_left' rfl, known⟩

theorem machine_prefix (word : Machine machine xlen letters) :
    xlen = 32 ∧ "RV32".toList <+: machine ∨ xlen = 64 ∧ "RV64".toList <+: machine := by
  cases word with
  | rv32 known => exact .inl ⟨rfl, List.prefix_append _ _⟩
  | rv64 known => exact .inr ⟨rfl, List.prefix_append _ _⟩

theorem drop_letters (word : Machine machine xlen letters) : Letters (machine.drop 4) := by
  rcases machine_letters word with ⟨-, same, known⟩
  exact same ▸ known

theorem machine_unique {other : Nat} {others : List Char} (word : Machine machine xlen letters)
    (second : Machine machine other others) : other = xlen ∧ others = letters := by
  constructor
  · rcases machine_prefix word with ⟨rfl, begins⟩ | ⟨rfl, begins⟩
    · rcases machine_prefix second with ⟨rfl, -⟩ | ⟨rfl, wide⟩
      · rfl
      · exact absurd ((List.prefix_of_prefix_length_le wide begins (by decide)).eq_of_length rfl) (by decide)
    · rcases machine_prefix second with ⟨rfl, narrow⟩ | ⟨rfl, -⟩
      · have same := (List.prefix_of_prefix_length_le narrow begins (by decide)).eq_of_length rfl
        exact absurd same (by decide)
      · rfl
  · exact (machine_letters second).2.1.symm.trans (machine_letters word).2.1

theorem exact_of_rejected (rejected : parseMachineModel machine minCost maxCost = none)
    (outside : ∀ {xlen letters}, ¬ Machine machine xlen letters) : Exact machine minCost maxCost where
  accepts := by
    rw [rejected]
    exact iff_of_false nofun fun ⟨_, _, word⟩ => outside word
  parsed := fun _ _ _ word => absurd word outside
  unordered := fun _ _ _ _ word => absurd word outside

theorem exact_of_machine (word : Machine machine xlen letters) (wide : 'G' ∈ letters → xlen = 64) :
    Exact machine minCost maxCost where
  accepts := by
    rw [parse_machine word]
    exact iff_of_true rfl ⟨xlen, letters, word⟩
  parsed := by
    intro other others feature second taken
    rcases machine_unique word second with ⟨rfl, rfl⟩
    rw [parse_machine word, Option.some.injEq] at taken
    subst taken
    constructor
    · rw [granted_xlen]
      split
      · rename_i general
        exact (wide general).symm
      · rfl
    · intro bit
      rw [granted_bit]
      simp
  unordered := by
    intro other first machine' others second third same
    rw [parse_machine second, parse_machine third, granted_unordered same]

/-- The parser keeps to its grammar exactly on the plain strings. -/
theorem parse_exact_iff (machine : List Char) (minCost maxCost : BitVec 32) :
    Exact machine minCost maxCost ↔ Plain machine := by
  constructor
  · intro meets
    by_cases long : 4 ≤ machine.length
    · by_cases known : Letters (machine.drop 4)
      · rcases parse_long minCost maxCost long known with ⟨feature, taken⟩
        rcases meets.accepts.mp (by rw [taken]; rfl) with ⟨xlen, letters, word⟩
        rcases machine_prefix word with ⟨narrow, begins⟩ | ⟨-, begins⟩
        · have wide := (meets.parsed xlen letters feature word taken).1
          rw [parse_machine word, Option.some.injEq] at taken
          have letters_eq := (machine_letters word).2.1
          refine .inr (.inr (.inr ⟨begins, fun general => ?_⟩))
          rw [← taken, granted_xlen, if_pos (letters_eq ▸ general)] at wide
          omega
        · exact .inr (.inr (.inl begins))
      · exact .inr (.inl known)
    · exact .inl (Nat.not_le.mp long)
  · intro plain
    by_cases long : 4 ≤ machine.length
    · by_cases known : Letters (machine.drop 4)
      · rcases plain with short | unknown | begins | ⟨begins, plain⟩
        · omega
        · exact absurd known unknown
        · rcases begins with ⟨letters, rfl⟩
          exact exact_of_machine (.rv64 known) fun _ => rfl
        · rcases begins with ⟨letters, rfl⟩
          exact exact_of_machine (.rv32 known) fun general => absurd general plain
      · exact exact_of_rejected (parse_unknown known) fun word => known (drop_letters word)
    · apply exact_of_rejected
      · rw [parseMachineModel, if_pos (Nat.not_le.mp long)]
      · exact fun word => long (machine_letters word).1

-- A prefix that is no word size is passed over, and RV32G is a 64-bit machine.
theorem parse_not_exact : ¬ Exact "Rev9IM".toList 1 1 ∧ ¬ Exact "RV32G".toList 1 1 := by
  constructor
  · intro meets
    rcases meets.accepts.mp (by decide) with ⟨xlen, letters, word⟩
    rcases machine_prefix word with ⟨-, begins⟩ | ⟨-, begins⟩
    · exact absurd begins (by decide)
    · exact absurd begins (by decide)
  · intro meets
    have word : Machine "RV32G".toList 32 ['G'] := .rv32 (by decide)
    have narrow := meets.parsed 32 ['G'] _ word (parse_machine word)
    exact absurd narrow.1 (by decide)

end Exact
end RevCPU.Feature
