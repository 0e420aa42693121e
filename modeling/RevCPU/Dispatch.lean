import RevCPU.Seed
/-!
From a decoded entry to the function that runs: the `EntryToExt` lookup of `ClockTick` followed by
`RevExt::Execute`. `Execute` checks its index against `table` only and picks `table` or `ctable`
by the payload's `compressed` flag; an index past the picked vector is undefined behaviour in the
source and `outOfRange` here.
-/
namespace RevCPU.Dispatch
open Feature InstTable Seed

inductive DispatchFault where
  | noExtension
  | noSuchInstruction (inst : Nat) (name : String)
  | outOfRange
deriving DecidableEq, Repr

/-- `RevExt::Execute` up to the call of `func`; of the payload it reads only the flag. The bound
is computed in `size_t`. -/
def executeFunc (ext : RevExt) (inst : Nat) (compressed : Bool) :
    Except DispatchFault ImplFunc :=
  if (ext.table.length + (2 ^ 64 - 1)) % 2 ^ 64 < inst then
    .error (.noSuchInstruction inst ext.name)
  else
    match (if compressed then ext.ctable else ext.table)[inst]? with
    | some entry => .ok entry.func
    | none => .error .outOfRange

def dispatch (tables : Tables) (entry : Nat) (payload : RevInst) :
    Except DispatchFault ImplFunc :=
  match OnceMap.find tables.entryToExt entry with
  | none => .error .noExtension
  | some (ext, inst) =>
    match tables.extensions[ext]? with
    | none => .error .outOfRange
    | some ext => executeFunc ext inst payload.compressed

/-- Every row of `InstTable`, dispatched with a payload decoded through it, runs its own `func`.
Decoding sets `payload.compressed` to the row's flag. -/
def RunsOwnFunc (tables : Tables) : Prop :=
  ∀ index entry payload, tables.instTable[index]? = some entry →
    payload.compressed = entry.compressed → dispatch tables index payload = .ok entry.func

/-- The vectors one `EnableExt` call appends, in order. -/
def segments (feature : RevFeature) (call : RevExt × Bool) : List (List RevInstEntry) :=
  call.1.table :: if isModeEnabled feature .RV_C then
    call.1.ctable :: if call.2 then [call.1.otable] else [] else []

-- Each appended row next to the pair that EntryToExt records for it.
def rowsOf (ext : Nat) (segment : List RevInstEntry) : List (RevInstEntry × (Nat × Nat)) :=
  segment.zipIdx.map fun item => (item.1, (ext, item.2))

def rows (feature : RevFeature) (calls : List (RevExt × Bool)) (start : Nat) :
    List (RevInstEntry × (Nat × Nat)) :=
  (calls.zipIdx start).flatMap fun item => (segments feature item.1).flatMap (rowsOf item.2)

/-- `rows` describes the tables: positions in `InstTable` and the pairs recorded for them agree. -/
structure Describes (rows : List (RevInstEntry × (Nat × Nat))) (tables : Tables) : Prop where
  entries : tables.instTable = rows.map Prod.fst
  recorded : ∀ index, OnceMap.find tables.entryToExt index = rows[index]?.map Prod.snd

theorem describes_empty : Describes [] .empty := by
  constructor
  · rfl
  · intro index
    rfl

theorem pushEntry_describes (tables : Tables) (listed : List (RevInstEntry × (Nat × Nat)))
    (item : RevInstEntry × Nat) (known : Describes listed tables) :
    Describes (listed ++ [(item.1, (tables.extensions.length - 1, item.2))])
      (pushEntry tables item) := by
  have size : tables.instTable.length = listed.length := by rw [known.entries, List.length_map]
  constructor
  · simp [pushEntry, known.entries]
  · intro index
    have fresh : OnceMap.find tables.entryToExt listed.length = none := by
      rw [known.recorded, List.getElem?_eq_none (Nat.le_refl _)]
      rfl
    simp only [pushEntry, List.length_append, List.length_cons, List.length_nil, size,
      Nat.zero_add, Nat.add_sub_cancel]
    rw [OnceMap.find_insert_fresh _ _ _ _ fresh, known.recorded, List.getElem?_append]
    by_cases last : index = listed.length
    · simp [last]
    · by_cases before : index < listed.length
      · simp [last, before]
      · have past : index - listed.length ≠ 0 := by omega
        simp [last, before, past]

theorem pushEntries_describes (tables : Tables) (listed : List (RevInstEntry × (Nat × Nat)))
    (segment : List RevInstEntry) (known : Describes listed tables) :
    Describes (listed ++ rowsOf (tables.extensions.length - 1) segment)
      (pushEntries tables segment) := by
  unfold pushEntries rowsOf
  generalize segment.zipIdx = items
  induction items generalizing tables listed with
  | nil => simpa using known
  | cons item rest ih =>
    have step := ih (pushEntry tables item) _ (pushEntry_describes tables listed item known)
    simpa [pushEntry] using step

-- One EnableExt call appends its segments under the index of the extension it pushes.
theorem enableExt_describes (feature : RevFeature) (tables : Tables)
    (listed : List (RevInstEntry × (Nat × Nat))) (call : RevExt × Bool)
    (known : Describes listed tables) :
    Describes (listed ++ (segments feature call).flatMap (rowsOf tables.extensions.length))
      (enableExt feature tables call) := by
  have opened : Describes listed { tables with extensions := tables.extensions ++ [call.1] } :=
    ⟨known.entries, known.recorded⟩
  have base := pushEntries_describes _ listed call.1.table opened
  have middle := pushEntries_describes _ _ call.1.ctable base
  have optional := pushEntries_describes _ _ call.1.otable middle
  unfold enableExt segments
  by_cases compressed : isModeEnabled feature .RV_C = true
  · by_cases opt : call.2 = true
    · simpa [compressed, opt] using optional
    · simpa [compressed, opt] using middle
  · simpa [compressed] using base

theorem enableExt_extensions (feature : RevFeature) (tables : Tables) (call : RevExt × Bool) :
    (enableExt feature tables call).extensions = tables.extensions ++ [call.1] := by
  unfold enableExt
  by_cases compressed : isModeEnabled feature .RV_C = true
  · by_cases opt : call.2 = true <;> simp [compressed, opt]
  · simp [compressed]

theorem seeding_describes (feature : RevFeature) (calls : List (RevExt × Bool)) (tables : Tables)
    (listed : List (RevInstEntry × (Nat × Nat))) (known : Describes listed tables) :
    Describes (listed ++ rows feature calls tables.extensions.length)
      (calls.foldl (enableExt feature) tables) := by
  induction calls generalizing tables listed with
  | nil => simpa [rows] using known
  | cons call rest ih =>
    have step := ih _ _ (enableExt_describes feature tables listed call known)
    simpa [rows, enableExt_extensions] using step

theorem seeding_extensions (feature : RevFeature) (calls : List (RevExt × Bool))
    (tables : Tables) :
    (calls.foldl (enableExt feature) tables).extensions =
      tables.extensions ++ calls.map Prod.fst := by
  induction calls generalizing tables with
  | nil => simp
  | cons call rest ih => simp [ih, enableExt_extensions]

/-- Within one call, every row sits at the index and in the vector that `Execute` will use. -/
def CallRuns (feature : RevFeature) (call : RevExt × Bool) : Prop :=
  ∀ segment ∈ segments feature call, ∀ item ∈ segment.zipIdx,
    executeFunc call.1 item.2 item.1.compressed = .ok item.1.func

instance (feature : RevFeature) (call : RevExt × Bool) : Decidable (CallRuns feature call) :=
  inferInstanceAs (Decidable (∀ segment ∈ segments feature call, ∀ item ∈ segment.zipIdx,
    executeFunc call.1 item.2 item.1.compressed = .ok item.1.func))

theorem mem_rows (feature : RevFeature) (calls : List (RevExt × Bool))
    (entry : RevInstEntry) (ext inst : Nat) :
    (entry, (ext, inst)) ∈ rows feature calls 0 ↔
      ∃ call, calls[ext]? = some call ∧
        ∃ segment ∈ segments feature call, (entry, inst) ∈ segment.zipIdx := by
  simp only [rows, rowsOf, List.mem_flatMap, List.mem_map, Prod.exists, Prod.mk.injEq,
    List.mem_zipIdx_iff_getElem?]
  constructor
  · rintro ⟨ext', opt, index, at_index, segment, member, entry', inst', found, rfl, rfl, rfl⟩
    exact ⟨ext', opt, at_index, segment, member, found⟩
  · rintro ⟨ext', opt, at_index, segment, member, found⟩
    exact ⟨ext', opt, ext, at_index, segment, member, entry, inst, found, rfl, rfl, rfl⟩

-- Dispatch by the position of a row among all rows.
theorem dispatch_position (feature : RevFeature) (index : Nat) (entry : RevInstEntry)
    (ext inst : Nat) (row : (rows feature (enabledExts feature) 0)[index]? = some (entry, (ext, inst)))
    (call : RevExt × Bool) (at_index : (enabledExts feature)[ext]? = some call) (payload : RevInst) :
    dispatch (seedInstTable feature) index payload =
      executeFunc call.1 inst payload.compressed := by
  have described := seeding_describes feature (enabledExts feature) .empty [] describes_empty
  have extensions := seeding_extensions feature (enabledExts feature) .empty
  rw [← seedInstTable, List.nil_append] at described
  rw [← seedInstTable] at extensions
  have recorded := described.recorded index
  simp only [Tables.empty, List.length_nil] at recorded
  rw [row] at recorded
  have owner : (seedInstTable feature).extensions[ext]? = some call.1 := by
    rw [extensions]
    simp [Tables.empty, at_index]
  simp [dispatch, recorded, owner]

theorem seeded_rows (feature : RevFeature) :
    (seedInstTable feature).instTable = (rows feature (enabledExts feature) 0).map Prod.fst := by
  have described := seeding_describes feature (enabledExts feature) .empty [] describes_empty
  rw [← seedInstTable, List.nil_append] at described
  exact described.entries

/-- A row runs the function at its own index of a vector of the extension it came with. -/
theorem dispatch_row (feature : RevFeature) (index : Nat) (entry : RevInstEntry) (payload : RevInst)
    (found : (seedInstTable feature).instTable[index]? = some entry) :
    ∃ call ∈ enabledExts feature, ∃ segment ∈ segments feature call, ∃ inst,
      (entry, inst) ∈ segment.zipIdx ∧ dispatch (seedInstTable feature) index payload =
        executeFunc call.1 inst payload.compressed := by
  rw [seeded_rows, List.getElem?_map] at found
  obtain ⟨⟨entry', ext, inst⟩, row, same⟩ := Option.map_eq_some_iff.mp found
  cases same
  obtain ⟨call, at_index, segment, listed, item⟩ :=
    (mem_rows feature (enabledExts feature) _ ext inst).mp (List.mem_of_getElem? row)
  exact ⟨call, List.mem_of_getElem? at_index, segment, listed, inst, item,
    dispatch_position feature index _ ext inst row call at_index payload⟩

-- Whether dispatch is faithful is decided call by call; the other extensions do not matter.
theorem runsOwnFunc_iff_calls (feature : RevFeature) :
    RunsOwnFunc (seedInstTable feature) ↔ ∀ call ∈ enabledExts feature, CallRuns feature call := by
  constructor
  · intro faithful call member segment listed item found
    obtain ⟨ext, at_index⟩ := List.mem_iff_getElem?.mp member
    have row := (mem_rows feature (enabledExts feature) item.1 ext item.2).mpr
      ⟨call, at_index, segment, listed, found⟩
    obtain ⟨index, row⟩ := List.mem_iff_getElem?.mp row
    let payload : RevInst := { (default : RevInst) with compressed := item.1.compressed }
    have reached := dispatch_position feature index item.1 ext item.2 row call at_index payload
    rw [← show payload.compressed = item.1.compressed from rfl, ← reached]
    refine faithful index item.1 payload ?_ rfl
    rw [seeded_rows, List.getElem?_map, row]
    rfl
  · intro faithful index entry payload found flag
    obtain ⟨call, member, segment, listed, inst, item, runs⟩ :=
      dispatch_row feature index entry payload found
    rw [runs, flag]
    exact faithful call member segment listed _ item

/-- The index check against `table` also bounds `ctable`, and the flags tell the two apart. -/
def Aligned (ext : RevExt) : Prop :=
  ext.table.length ≠ 0 ∧ ext.table.length < 2 ^ 64 ∧ ext.ctable.length ≤ ext.table.length ∧
    Sorted ext

instance (ext : RevExt) : Decidable (Aligned ext) :=
  inferInstanceAs (Decidable (ext.table.length ≠ 0 ∧ ext.table.length < 2 ^ 64 ∧
    ext.ctable.length ≤ ext.table.length ∧ Sorted ext))

theorem executeFunc_aligned (ext : RevExt) (aligned : Aligned ext) (compressed : Bool)
    (entry : RevInstEntry) (inst : Nat)
    (found : (if compressed then ext.ctable else ext.table)[inst]? = some entry) :
    executeFunc ext inst compressed = .ok entry.func := by
  obtain ⟨nonempty, small, shorter, -⟩ := aligned
  have inside : inst < ext.table.length := by
    have bound := (List.getElem?_eq_some_iff.mp found).1
    cases compressed <;> simp at bound <;> omega
  have accepted : ¬ (ext.table.length + (2 ^ 64 - 1)) % 2 ^ 64 < inst := by omega
  rw [executeFunc, if_neg accepted, found]

theorem callRuns_aligned (feature : RevFeature) (ext : RevExt) (aligned : Aligned ext) :
    CallRuns feature (ext, false) := by
  intro segment listed item found
  have at_index := List.mem_zipIdx_iff_getElem?.mp found
  have row := List.mem_of_getElem? at_index
  have parts : segment = ext.table ∨ segment = ext.ctable := by
    unfold segments at listed
    by_cases compressed : isModeEnabled feature .RV_C = true <;> simp_all
  rcases parts with rfl | rfl
  · have flag := aligned.2.2.2.1 item.1 row
    exact executeFunc_aligned ext aligned _ _ _ (by simpa [flag] using at_index)
  · have flag := aligned.2.2.2.2.1 item.1 row
    exact executeFunc_aligned ext aligned _ _ _ (by simpa [flag] using at_index)

-- Without the C extension the optional table is never appended.
theorem callRuns_uncompressed (feature : RevFeature) (ext : RevExt) (opt : Bool)
    (off : isModeEnabled feature .RV_C = false) :
    CallRuns feature (ext, opt) ↔ CallRuns feature (ext, false) := by
  simp [CallRuns, segments, off]

theorem callRuns_opt_rv32i (feature : RevFeature) (on : isModeEnabled feature .RV_C = true) :
    ¬ CallRuns feature (rv32i, true) := by
  intro runs
  have row := runs rv32i.otable (by simp [segments, on]) (rv32i.otable.head (by decide), 0)
    (by decide)
  exact absurd row (by decide)

theorem callRuns_opt_rv32f (feature : RevFeature) (on : isModeEnabled feature .RV_C = true) :
    ¬ CallRuns feature (rv32f, true) := by
  intro runs
  have row := runs rv32f.otable (by simp [segments, on]) (rv32f.otable.head (by decide), 0)
    (by decide)
  exact absurd row (by decide)

/-- The optional compressed table is loaded: 32-bit with I, or 32-bit with F and without D. -/
def loadsOptional (feature : RevFeature) : Bool :=
  isModeEnabled feature .RV_C && isRV32 feature &&
    (isModeEnabled feature .RV_I ||
      (isModeEnabled feature .RV_F && !isModeEnabled feature .RV_D))

theorem enabledExts_aligned (feature : RevFeature) (call : RevExt × Bool)
    (member : call ∈ enabledExts feature) : Aligned call.1 :=
  enabledExts_forall feature Aligned (by decide) call member

theorem enabledExts_opt (feature : RevFeature)
    (legal : feature.xlen = 32 ∨ feature.xlen = 64) (call : RevExt × Bool)
    (member : call ∈ enabledExts feature) (opt : call.2 = true) :
    isRV32 feature = true ∧ (isModeEnabled feature .RV_I = true ∨
      isModeEnabled feature .RV_F = true ∧ isModeEnabled feature .RV_D = false) := by
  simp only [enabledExts, Seed.when, List.mem_append] at member
  unfold isRV32
  rcases member with ((((member | member) | member) | member) | member) | member <;>
    split at member <;> (try split at member) <;> simp at member <;> grind

-- The two calls with a true Opt argument, and when they are made.
theorem rv32i_opt_member (feature : RevFeature) (narrow : isRV32 feature = true)
    (mode : isModeEnabled feature .RV_I = true) : (rv32i, true) ∈ enabledExts feature := by
  have width : feature.xlen = 32 := by simpa [isRV32] using narrow
  simp [enabledExts, Seed.when, mode, width]

theorem rv32f_opt_member (feature : RevFeature) (narrow : isRV32 feature = true)
    (float : isModeEnabled feature .RV_F = true) (double : isModeEnabled feature .RV_D = false) :
    (rv32f, true) ∈ enabledExts feature := by
  have width : feature.xlen = 32 := by simpa [isRV32] using narrow
  simp [enabledExts, Seed.when, float, double, width]

theorem runsOwnFunc_of_absent (feature : RevFeature) (legal : feature.xlen = 32 ∨ feature.xlen = 64)
    (absent : loadsOptional feature = false) : RunsOwnFunc (seedInstTable feature) := by
  rw [runsOwnFunc_iff_calls]
  intro call member
  have plain := callRuns_aligned feature call.1 (enabledExts_aligned feature call member)
  obtain ⟨ext, opt⟩ := call
  cases opt with
  | false => exact plain
  | true =>
    obtain ⟨narrow, modes⟩ := enabledExts_opt feature legal _ member rfl
    have off : isModeEnabled feature .RV_C = false := by
      simp only [loadsOptional, narrow, Bool.and_true] at absent
      rcases modes with mode | ⟨float, double⟩
      · simpa [mode] using absent
      · simpa [float, double] using absent
    exact (callRuns_uncompressed feature ext true off).mpr plain

/-- Dispatch runs the decoded entry's own function exactly when no optional compressed table is
loaded: `Execute` has no branch for `otable`. -/
theorem dispatch_runs_own_func_iff (machine : List Char) (minCost maxCost : BitVec 32)
    (feature : RevFeature) (accepted : parseMachineModel machine minCost maxCost = some feature) :
    RunsOwnFunc (seedInstTable feature) ↔ loadsOptional feature = false := by
  constructor
  · intro runs
    rw [runsOwnFunc_iff_calls] at runs
    by_contra loaded
    simp only [Bool.not_eq_false, loadsOptional, Bool.and_eq_true, Bool.or_eq_true,
      Bool.not_eq_true'] at loaded
    obtain ⟨⟨compressed, narrow⟩, mode | ⟨float, double⟩⟩ := loaded
    · exact callRuns_opt_rv32i feature compressed
        (runs _ (rv32i_opt_member feature narrow mode))
    · exact callRuns_opt_rv32f feature compressed
        (runs _ (rv32f_opt_member feature narrow float double))
  · exact runsOwnFunc_of_absent feature (parseMachineModel_xlen machine minCost maxCost feature accepted)

theorem dispatch_runs_own_func_iff_rv64gc :
    ∃ feature, parseMachineModel "RV64GC".toList 0 0 = some feature ∧
      RunsOwnFunc (seedInstTable feature) := by
  refine ⟨{ features := 126, xlen := 64, minCost := 0, maxCost := 0 }, by decide, ?_⟩
  exact (dispatch_runs_own_func_iff "RV64GC".toList 0 0 _ (by decide)).mpr (by decide)

/-- On RV32IC the row of c.jal is dispatched to the trampoline of c.addi4spn. -/
theorem dispatch_rv32ic_cjal :
    ∃ feature entry, parseMachineModel "RV32IC".toList 0 0 = some feature ∧
      (seedInstTable feature).instTable[68]? = some entry ∧
      entry.func = .rv32i .cjal ∧
      dispatch (seedInstTable feature) 68 { (default : RevInst) with compressed := true } =
        .ok (.rv32i .caddi4spn) ∧
      ¬ RunsOwnFunc (seedInstTable feature) := by
  refine ⟨{ features := 66, xlen := 32, minCost := 0, maxCost := 0 },
    IntTables.rv32ICOTable.head (by decide), by decide, by decide, by decide, by decide, ?_⟩
  intro runs
  have own := runs 68 (IntTables.rv32ICOTable.head (by decide))
    { (default : RevInst) with compressed := true } (by decide) (by decide)
  exact absurd own (by decide)

end RevCPU.Dispatch
