import RevCPU.DecodeCompressed
import RevCPU.Insns.Operands
import RevCPU.Proc
/-!
The scoreboard between two decoded instructions. It is indexed by the register fields as they were
decoded and by one flag for each instruction, whether any operand is floating, so it sees a
dependency where both instructions use the registers their fields name, in the file of the flag.
-/
namespace RevCPU.Scoreboard
open Feature InstTable Seed Decode DecodeCompressed Dispatch FloatTables Proc Insns.Operands

section Board
variable (feature : RevFeature) (float : Nat → Bool) (file : CtxFile) (inst : RevInst)

def AllClear (file : CtxFile) : Prop := ∀ bank index, file.board bank index = false

/-- The entries of the scoreboard that the three functions touch. The check admits one too many. -/
def checked : List (BitVec 8) := [inst.rs1, inst.rs2, inst.rs3].filter (·.toNat ≤ numRegs)

def marked : List (BitVec 8) := if inst.rd ≠ 0 ∧ inst.rd.toNat < numRegs then [inst.rd] else []

def cleared : List (BitVec 8) := if inst.rd.toNat < numRegs then [inst.rd] else []

theorem dependencyCheck_checked : dependencyCheck feature float file inst =
    (inst.hazard == some true ||
      (checked inst).any (file.board (bankOf feature (float inst.entry)))) := by
  simp only [dependencyCheck, checked, List.any_filter, List.any_cons, List.any_nil, Bool.or_false,
    Bool.or_assoc]

theorem dependencySet_marked (bank : Bank) (index : BitVec 8) :
    (dependencySet feature float file inst).board bank index =
      (file.board bank index ||
        decide (bank = bankOf feature (float inst.entry) ∧ index ∈ marked inst)) := by
  rw [dependencySet, marked]
  by_cases valid : inst.rd ≠ 0 ∧ inst.rd.toNat < numRegs
  · rw [if_pos valid, if_pos valid, setBit]
    simp only [List.mem_singleton]
    by_cases there : bank = bankOf feature (float inst.entry)
    · subst there
      by_cases same : index = inst.rd
      · simp [same]
      · simp [same]
    · simp [there]
  · rw [if_neg valid, if_neg valid]
    simp

-- Marking a clear scoreboard and clearing it again leaves no trace.
theorem dependencyClear_dependencySet (clear : AllClear file) :
    dependencyClear feature float (dependencySet feature float file inst) inst = file := by
  have unset : ∀ bank (board : Bank → BitVec 8 → Bool), board = file.board →
      Function.update board bank (Function.update (board bank) inst.rd false) = board := by
    rintro bank board rfl
    rw [← clear bank inst.rd, Function.update_eq_self, Function.update_eq_self]
  rw [dependencyClear, dependencySet]
  by_cases inside : inst.rd.toNat < numRegs
  · rw [if_pos inside]
    by_cases valid : inst.rd ≠ 0 ∧ inst.rd.toNat < numRegs
    · rw [if_pos valid]
      simp only [setBit, Function.update_self, Function.update_idem]
      rw [unset _ file.board rfl]
    · rw [if_neg valid, setBit, unset _ file.board rfl]
  · have unmarked : ¬ (inst.rd ≠ 0 ∧ inst.rd.toNat < numRegs) := fun valid => inside valid.2
    rw [if_neg inside, if_neg unmarked]

end Board

section Functions
variable (inst : RevInst) (func : ImplFunc)

/-- `IsFloat` of the row of a function. The rows of flw and c.fsd name no floating operand. -/
def flagOf : ImplFunc → Bool
  | .rv32f .flw | .rv32d .cfsd => false
  | .rv32f _ | .rv64f _ | .rv32d _ | .rv64d _ => true
  | _ => false

/-- The functions that rewrite rd before they use it, or write the file their flag does not name. -/
def destMoved : ImplFunc → Bool
  | .rv32i func => decide (func ∈ [.caddi4spn, .clw, .cj, .cjal, .CRFUNC_1001, .csrli, .csrai,
      .candi, .cand, .cor, .cxor, .csub])
  | .rv64i func => decide (func ∈ [.cld, .caddw, .csubw])
  | .rv32f func => decide (func ∈ [.flw, .fcvtws, .fcvtwus, .fmvxw, .feqs, .flts, .fles, .fclasss,
      .cflw])
  | .rv64f func => decide (func ∈ [.fcvtls, .fcvtlus])
  | .rv32d func => decide (func ∈ [.feqd, .fltd, .fled, .fcvtwd, .fcvtwud, .cfld])
  | .rv64d func => decide (func ∈ [.fcvtld, .fcvtlud, .fcvtwd, .fmvxd, .fmvdx])
  | _ => false

/-- The functions that rewrite a source field to another register, or read one from the file their
flag does not name. -/
def sourceMoved : ImplFunc → Bool
  | .rv32i func => decide (func ∈ [.caddi4spn, .clwsp, .cswsp, .clw, .csw, .cbeqz, .cbnez, .caddi,
      .cslli, .csrli, .csrai, .candi, .cand, .cor, .cxor, .csub])
  | .rv64i func => decide (func ∈ [.cldsp, .csdsp, .cld, .csd, .caddiw, .caddw, .csubw])
  | .rv32f func => decide (func ∈ [.fsw, .fcvtsw, .fcvtswu, .fmvwx, .cflwsp, .cfswsp, .cflw, .cfsw])
  | .rv64f func => decide (func ∈ [.fcvtsl, .fcvtslu])
  | .rv32d func => decide (func ∈ [.fld, .fsd, .fcvtdw, .fcvtdwu, .cfldsp, .cfsdsp, .cfld, .cfsd])
  | .rv64d func => decide (func ∈ [.fcvtdl, .fcvtdlu])
  | _ => false

/-- The files that a function uses fit the flag of its row where it is not listed above. -/
def FilesKept (base : ImplFunc) : Prop :=
  (destMoved func = false → (fields base).rd ≠ some (!flagOf func)) ∧
    (sourceMoved func = false → ∀ file ∈ [(fields base).rs1, (fields base).rs2, (fields base).rs3],
      file ≠ some (!flagOf func))

instance (base : ImplFunc) : Decidable (FilesKept func base) :=
  inferInstanceAs (Decidable (_ ∧ _))

theorem rv32i_files (func base : RV32IFunc) : FilesKept (.rv32i func) (.rv32i base) := by
  have integer : (rv32iFields base).rd ≠ some true ∧ ∀ file ∈ [(rv32iFields base).rs1,
      (rv32iFields base).rs2, (rv32iFields base).rs3], file ≠ some true := by
    cases base <;> decide
  exact ⟨fun _ => integer.1, fun _ => integer.2⟩

-- Outside RV32I the operands do not decide which function runs.
theorem expand_base (wide : ∀ func', func ≠ .rv32i func') :
    (expand inst func).1 = (expand default func).1 := by
  cases func with
  | rv32i func => exact absurd rfl (wide func)
  | rv64i func => cases func <;> rfl
  | rv32f func => cases func <;> rfl
  | rv32d func => cases func <;> rfl
  | _ => rfl

theorem files_kept : FilesKept func (expand inst func).1 := by
  by_cases integer : ∃ func', func = .rv32i func'
  · obtain ⟨func', rfl⟩ := integer
    exact rv32i_files func' _
  · rw [expand_base inst func fun func' same => integer ⟨func', same⟩]
    cases func with
    | null => decide
    | rv32i func => exact absurd ⟨func, rfl⟩ integer
    | rv64i func => cases func <;> decide
    | rv32m func => cases func <;> decide
    | rv64m func => cases func <;> decide
    | rv32a func => cases func <;> decide
    | rv64a func => cases func <;> decide
    | rv32f func => cases func <;> decide
    | rv64f func => cases func <;> decide
    | rv32d func => cases func <;> decide
    | rv64d func => cases func <;> decide
    | rv64p func => cases func <;> decide

/-- A register field that a trampoline left alone, or replaced by x0. -/
def Left (before after : BitVec 8) : Prop := after = before ∨ flagOf func = false ∧ after = 0

theorem dest_left (kept : destMoved func = false) : (expand inst func).2.rd = inst.rd := by
  cases func with
  | rv32i func =>
    cases func with
    | CRFUNC_1000 =>
      rw [expand, expandRV32I]
      split <;> rfl
    | CIFUNC =>
      rw [expand, expandRV32I]
      split <;> rfl
    | _ => first | rfl | exact absurd kept (by decide)
  | rv64i func => cases func <;> first | rfl | exact absurd kept (by decide)
  | rv32f func => cases func <;> first | rfl | exact absurd kept (by decide)
  | rv32d func => cases func <;> first | rfl | exact absurd kept (by decide)
  | _ => rfl

theorem sources_left (kept : sourceMoved func = false) :
    Left func inst.rs1 (expand inst func).2.rs1 ∧ Left func inst.rs2 (expand inst func).2.rs2 ∧
      (expand inst func).2.rs3 = inst.rs3 := by
  cases func with
  | rv32i func =>
    cases func with
    | CRFUNC_1000 =>
      rw [expand, expandRV32I]
      split
      · exact ⟨.inr ⟨rfl, rfl⟩, .inl rfl, rfl⟩
      · exact ⟨.inl rfl, .inr ⟨rfl, rfl⟩, rfl⟩
    | CRFUNC_1001 =>
      rw [expand, expandRV32I]
      split
      · exact ⟨.inl rfl, .inl rfl, rfl⟩
      · split <;> exact ⟨.inl rfl, .inl rfl, rfl⟩
    | CIFUNC =>
      rw [expand, expandRV32I]
      split <;> exact ⟨.inl rfl, .inl rfl, rfl⟩
    | cli => exact ⟨.inr ⟨rfl, rfl⟩, .inl rfl, rfl⟩
    | _ => first | exact ⟨.inl rfl, .inl rfl, rfl⟩ | exact absurd kept (by decide)
  | rv64i func =>
    cases func <;> first | exact ⟨.inl rfl, .inl rfl, rfl⟩ | exact absurd kept (by decide)
  | rv32f func =>
    cases func <;> first | exact ⟨.inl rfl, .inl rfl, rfl⟩ | exact absurd kept (by decide)
  | rv32d func =>
    cases func <;> first | exact ⟨.inl rfl, .inl rfl, rfl⟩ | exact absurd kept (by decide)
  | _ => exact ⟨.inl rfl, .inl rfl, rfl⟩

theorem flag_of_file (file : Option Bool) (float : Bool) (fits : file ≠ some (!flagOf func))
    (used : file = some float) : float = flagOf func := by
  cases used
  simpa using fits

/-- Any other function writes the register its rd names, in the file of its flag. -/
theorem dest_kept (kept : destMoved func = false) (reg : Reg) (written : reg ∈ dests inst func) :
    reg = { float := flagOf func, index := inst.rd } := by
  obtain ⟨file, place⟩ := (mem_dests inst func reg).mp written
  rw [dest_left inst func kept] at place
  rw [← flag_of_file func _ _ ((files_kept inst func).1 kept) file, place]

/-- Any other function reads registers its source fields name, in the file of its flag, and x0. -/
theorem source_kept (kept : sourceMoved func = false) (reg : Reg)
    (read : reg ∈ sources inst func) (other : reg ≠ { float := false, index := 0 }) :
    reg.float = flagOf func ∧ reg.index ∈ [inst.rs1, inst.rs2, inst.rs3] := by
  have fits := (files_kept inst func).2 kept
  obtain ⟨first, second, third⟩ := sources_left inst func kept
  have left : ∀ before after, Left func before after → reg.float = flagOf func →
      after = reg.index → before = reg.index := by
    rintro before after (rfl | ⟨integer, rfl⟩) flag place
    · exact place
    · exact absurd (Reg.ext (flag.trans integer) place.symm) other
  rcases (mem_sources inst func reg).mp read with ⟨file, place⟩ | ⟨file, place⟩ | ⟨file, place⟩
  · have flag := flag_of_file func _ _ (fits _ (by simp)) file
    exact ⟨flag, by simp [left _ _ first flag place]⟩
  · have flag := flag_of_file func _ _ (fits _ (by simp)) file
    exact ⟨flag, by simp [left _ _ second flag place]⟩
  · have flag := flag_of_file func _ _ (fits _ (by simp)) file
    exact ⟨flag, by simp [← place, third]⟩

end Functions

section Pairs
variable (feature : RevFeature) (tables : Tables)

/-- `RevProc::IsFloat`. -/
def isFloatEntry (entry : Nat) : Bool := tables.instTable[entry]?.any isFloat

/-- An instruction as `ClockTick` hands it to the check. -/
def IsDecoded (inst : RevInst) : Prop :=
  ∃ coProc crack junk fetched decoded,
    decodeInst feature (seedInstTable feature) coProc crack junk fetched = .ok decoded ∧
    inst = { decoded.inst with entry := decoded.entry, hazard := none }

def Counts (reg : Reg) : Prop :=
  reg.index.toNat < numRegs ∧ reg ≠ { float := false, index := 0 }

def Writes (inst : RevInst) (reg : Reg) : Prop :=
  ∃ func, dispatch tables inst.entry inst = .ok func ∧ reg ∈ dests inst func

def Reads (inst : RevInst) (reg : Reg) : Prop :=
  ∃ func, dispatch tables inst.entry inst = .ok func ∧ reg ∈ sources inst func

variable (first second : RevInst) (file : CtxFile)

/-- What the scoreboard owes a pair of instructions. -/
structure Sees : Prop where
  dependency : ∀ reg, Counts reg → Writes tables first reg → Reads tables second reg →
    dependencyCheck feature (isFloatEntry tables)
      (dependencySet feature (isFloatEntry tables) file first) second = true
  restored : dependencyClear feature (isFloatEntry tables)
    (dependencySet feature (isFloatEntry tables) file first) first = file
  inRange : ∀ index ∈ marked first ++ cleared first ++ checked second, index.toNat < numRegs

/-- The decoded destination of the one is a decoded source of the other, under the same flag. -/
def FieldsMeet : Prop :=
  isFloatEntry tables first.entry = isFloatEntry tables second.entry ∧
    first.rd ≠ 0 ∧ first.rd.toNat < numRegs ∧ first.rd ∈ [second.rs1, second.rs2, second.rs3]

theorem bankOf_inj (left right : Bool) :
    bankOf feature left = bankOf feature right ↔ left = right := by
  rw [bankOf, bankOf]
  cases isRV32 feature <;> cases left <;> cases right <;> decide

theorem check_iff (clear : AllClear file) (calm : second.hazard = none) :
    dependencyCheck feature (isFloatEntry tables)
      (dependencySet feature (isFloatEntry tables) file first) second = true ↔
      FieldsMeet tables first second := by
  rw [dependencyCheck_checked, calm]
  simp only [Bool.or_eq_true, List.any_eq_true, dependencySet_marked, clear _ _, Bool.false_or,
    decide_eq_true_eq, bankOf_inj]
  constructor
  · rintro (calm | ⟨index, member, same, written⟩)
    · exact absurd calm (by decide)
    · rw [marked] at written
      split at written
      · rename_i valid
        obtain rfl := List.mem_singleton.mp written
        exact ⟨same.symm, valid.1, valid.2, List.mem_of_mem_filter member⟩
      · exact absurd written List.not_mem_nil
  · rintro ⟨same, nonzero, inside, member⟩
    refine .inr ⟨first.rd, ?_, same.symm, ?_⟩
    · exact List.mem_filter.mpr ⟨member, decide_eq_true (Nat.le_of_lt inside)⟩
    · rw [marked, if_pos ⟨nonzero, inside⟩]
      exact List.mem_singleton_self _

theorem inRange_iff : (∀ index ∈ marked first ++ cleared first ++ checked second,
    index.toNat < numRegs) ↔ ∀ index ∈ [second.rs1, second.rs2, second.rs3], index.toNat ≠ numRegs := by
  have written : ∀ index ∈ marked first ++ cleared first, index.toNat < numRegs := by
    intro index member
    rw [marked, cleared] at member
    rcases List.mem_append.mp member with member | member
    · split at member
      · rename_i valid
        rw [List.mem_singleton.mp member]
        exact valid.2
      · exact absurd member List.not_mem_nil
    · split at member
      · rename_i valid
        rw [List.mem_singleton.mp member]
        exact valid
      · exact absurd member List.not_mem_nil
  constructor
  · intro inside index member last
    have admitted : index ∈ checked second :=
      List.mem_filter.mpr ⟨member, decide_eq_true (Nat.le_of_eq last)⟩
    exact absurd (inside index (List.mem_append_right _ admitted)) (by omega)
  · intro apart index member
    rcases List.mem_append.mp member with member | member
    · exact written index member
    · obtain ⟨listed, admitted⟩ := List.mem_filter.mp member
      have other := apart index listed
      have bound := of_decide_eq_true admitted
      omega

def fits (row : RevInstEntry) : Bool := isFloat row == flagOf row.func

theorem tables_fit : ∀ ext ∈ allExts, ext.table.all fits = true ∧ ext.ctable.all fits = true := by
  decide

-- Execute takes the row of c.jal for that of c.addi4spn and finds none for the optional rows of
-- RV32F.
theorem optional_fit : ∀ ext ∈ allExts, ext.otable.zipIdx.all (fun item =>
    match executeFunc ext item.2 true with
    | .ok func => isFloat item.1 == flagOf func
    | .error _ => true) = true := by
  decide

theorem segment_fits (call : RevExt × Bool) (called : call ∈ enabledExts feature)
    (segment : List RevInstEntry) (member : segment ∈ segments feature call) (row : RevInstEntry)
    (place : Nat) (item : (row, place) ∈ segment.zipIdx) (func : ImplFunc)
    (runs : executeFunc call.1 place row.compressed = .ok func) : isFloat row = flagOf func := by
  have aligned := enabledExts_aligned feature call called
  have at_index := List.mem_zipIdx_iff_getElem?.mp item
  have listed := List.mem_of_getElem? at_index
  have own : ∀ rows : List RevInstEntry, rows.all fits = true → row ∈ rows →
      executeFunc call.1 place row.compressed = .ok row.func → isFloat row = flagOf func := by
    intro rows every inside ran
    rw [ran] at runs
    rw [← Except.ok.inj runs]
    exact beq_iff_eq.mp (List.all_eq_true.mp every row inside)
  have parts : segment = call.1.table ∨ segment = call.1.ctable ∨ segment = call.1.otable := by
    unfold segments at member
    grind
  obtain ⟨wide, short⟩ := enabledExts_forall feature _ tables_fit call called
  rcases parts with rfl | rfl | rfl
  · have flag := aligned.2.2.2.1 row listed
    exact own _ wide listed
      (executeFunc_aligned call.1 aligned _ row place (by simpa [flag] using at_index))
  · have flag := aligned.2.2.2.2.1 row listed
    exact own _ short listed
      (executeFunc_aligned call.1 aligned _ row place (by simpa [flag] using at_index))
  · have optional := enabledExts_forall feature _ optional_fit call called
    have fit := List.all_eq_true.mp optional (row, place) item
    rw [aligned.2.2.2.2.2 row listed] at runs
    simp only [runs, beq_iff_eq] at fit
    exact fit

-- The function that runs has the flag of the row that was decoded, own or not.
theorem flag_run (inst : RevInst) (decoded : IsDecoded feature inst) (func : ImplFunc)
    (runs : dispatch (seedInstTable feature) inst.entry inst = .ok func) :
    isFloatEntry (seedInstTable feature) inst.entry = flagOf func := by
  obtain ⟨coProc, crack, junk, fetched, result, ran, rfl⟩ := decoded
  obtain ⟨row, listed, -, flag⟩ := decodeInst_entry feature _ coProc crack junk fetched result ran
  obtain ⟨call, called, segment, member, place, item, dispatched⟩ :=
    dispatch_row feature result.entry row
      { result.inst with entry := result.entry, hazard := none } listed
  rw [dispatched] at runs
  simp only [flag] at runs
  rw [← segment_fits feature call called segment member row place item func runs, isFloatEntry,
    listed]
  rfl

/-- The function that runs keeps its destination, or its sources, where the decoder put them. -/
def KeepsDest (inst : RevInst) : Prop :=
  ∀ func, dispatch tables inst.entry inst = .ok func → destMoved func = false

def KeepsSources (inst : RevInst) : Prop :=
  ∀ func, dispatch tables inst.entry inst = .ok func → sourceMoved func = false

end Pairs

section Runs

def rv64f : RevFeature := { features := 18, xlen := 64, minCost := 1, maxCost := 1 }

def idle : CtxFile :=
  { regs := default, cost := 0, trigger := false, entry := 0, board := fun _ _ => false
    ecall := false }

-- flw f1, 0(x2)
def loadSingle : RevInst :=
  { (default : RevInst) with
    opcode := 0b0000111, funct3 := 0b010, rd := 1, rs1 := 2, instSize := 4, entry := 59 }

-- fadd.s f2, f1, f1
def addSingle : RevInst :=
  { (default : RevInst) with
    opcode := 0b1010011, rd := 2, rs1 := 1, rs2 := 1, instSize := 4, entry := 65 }

-- fadd.s f3, f2, f2
def addAgain : RevInst := { addSingle with rd := 3, rs1 := 2, rs2 := 2 }

theorem loadSingle_decoded : IsDecoded rv64f loadSingle :=
  ⟨none, none, default, 0x00012087,
    { inst := { loadSingle with entry := 0 }, entry := 59, cost := 1 }, rfl, rfl⟩

theorem addSingle_decoded : IsDecoded rv64f addSingle :=
  ⟨none, none, default, 0x00108153,
    { inst := { addSingle with entry := 0 }, entry := 65, cost := 1 }, rfl, rfl⟩

theorem addAgain_decoded : IsDecoded rv64f addAgain :=
  ⟨none, none, default, 0x002101D3,
    { inst := { addAgain with entry := 0 }, entry := 65, cost := 1 }, rfl, rfl⟩

theorem rv64f_runs : RunsOwnFunc (seedInstTable rv64f) :=
  runsOwnFunc_of_absent rv64f (.inr rfl) (by decide)

theorem addSingle_runs : dispatch (seedInstTable rv64f) addSingle.entry addSingle = .ok (.rv32f .fadds) :=
  rv64f_runs 65 (rv32FTable.get ⟨6, by decide⟩) addSingle rfl rfl

theorem addAgain_runs : dispatch (seedInstTable rv64f) addAgain.entry addAgain = .ok (.rv32f .fadds) :=
  rv64f_runs 65 (rv32FTable.get ⟨6, by decide⟩) addAgain rfl rfl

end Runs
end RevCPU.Scoreboard
