import RevCPU.Feature
import RevCPU.FloatTables
import RevCPU.IntTables
import RevCPU.Lib.OnceMap
/-!
`RevExt` and the table half of `RevProc`: `EnableExt`, `SeedInstTable` and `InitTableMapping`.
`InstTable` is one list, `EntryToExt` maps its indices back to an extension and an index inside
the table that was being appended. Verbose output is not modelled; `EnableExt` is never given the
null pointer it guards against.
-/
namespace RevCPU.Seed
open Feature InstTable IntTables FloatTables

structure RevExt where
  name : String
  table : List RevInstEntry
  ctable : List RevInstEntry := []
  otable : List RevInstEntry := []

def rv32i : RevExt :=
  { name := "RV32I", table := rv32ITable, ctable := rv32ICTable, otable := rv32ICOTable }

def rv64i : RevExt := { name := "RV64I", table := rv64ITable, ctable := rv64ICTable }

def rv32m : RevExt := { name := "RV32M", table := rv32MTable }

def rv64m : RevExt := { name := "RV64M", table := rv64MTable }

def rv32a : RevExt := { name := "RV32A", table := rv32ATable }

def rv64a : RevExt := { name := "RV64A", table := rv64ATable }

def rv32f : RevExt := { name := "RV32F", table := rv32FTable, otable := rv32FCOTable }

def rv64f : RevExt := { name := "RV64F", table := rv64FTable }

def rv32d : RevExt := { name := "RV32D", table := rv32DTable, ctable := rv32DCTable }

def rv64d : RevExt := { name := "RV64D", table := rv64DTable }

def rv64p : RevExt := { name := "RV64P", table := rv64PTable }

def allExts : List RevExt :=
  [rv32i, rv64i, rv32m, rv64m, rv32a, rv64a, rv32f, rv64f, rv32d, rv64d, rv64p]

structure Tables where
  extensions : List RevExt
  instTable : List RevInstEntry
  entryToExt : OnceMap.Map Nat (Nat × Nat)

def Tables.empty : Tables := { extensions := [], instTable := [], entryToExt := OnceMap.empty }

/-- The body of each of the three append loops, at index `i` of the table being appended. -/
def pushEntry (tables : Tables) (item : RevInstEntry × Nat) : Tables :=
  let instTable := tables.instTable ++ [item.1]
  { tables with
    instTable := instTable
    entryToExt := OnceMap.insert tables.entryToExt (instTable.length - 1)
      (tables.extensions.length - 1, item.2) }

def pushEntries (tables : Tables) (rows : List RevInstEntry) : Tables :=
  rows.zipIdx.foldl pushEntry tables

def enableExt (feature : RevFeature) (tables : Tables) (call : RevExt × Bool) : Tables :=
  let ext := call.1
  let tables := { tables with extensions := tables.extensions ++ [ext] }
  let tables := pushEntries tables ext.table
  if isModeEnabled feature .RV_C then
    let tables := pushEntries tables ext.ctable
    if call.2 then pushEntries tables ext.otable else tables
  else tables

def when (test : Bool) (calls : List (RevExt × Bool)) : List (RevExt × Bool) :=
  if test then calls else []

/-- The `EnableExt` calls of `SeedInstTable`, in order, with their `Opt` argument. -/
def enabledExts (feature : RevFeature) : List (RevExt × Bool) :=
  let mode := isModeEnabled feature
  let wide := feature.xlen == 64
  when (mode .RV_I) (if wide then [(rv32i, false), (rv64i, false)] else [(rv32i, true)]) ++
  when (mode .RV_M) ((rv32m, false) :: when wide [(rv64m, false)]) ++
  when (mode .RV_A) ((rv32a, false) :: when wide [(rv64a, false)]) ++
  when (mode .RV_F) (if !mode .RV_D && feature.xlen == 32 then [(rv32f, true)]
    else [(rv32f, false), (rv64f, false)]) ++
  when (mode .RV_D) ((rv32d, false) :: when wide [(rv64d, false)]) ++
  when (mode .RV_P) [(rv64p, false)]

def seedInstTable (feature : RevFeature) : Tables :=
  (enabledExts feature).foldl (enableExt feature) .empty

theorem enabledExts_forall (feature : RevFeature) (property : RevExt → Prop)
    (every : ∀ ext ∈ allExts, property ext) (call : RevExt × Bool)
    (member : call ∈ enabledExts feature) : property call.1 := by
  simp only [allExts, List.forall_mem_cons, List.not_mem_nil, false_imp_iff, implies_true,
    and_true] at every
  simp only [enabledExts, when, List.mem_append] at member
  rcases member with ((((member | member) | member) | member) | member) | member <;>
    split at member <;> (try split at member) <;> simp at member <;> grind

/-- `EncToEntry` as `InitTableMapping` fills it. -/
def encToEntry (tables : Tables) : OnceMap.Map (BitVec 32) Nat :=
  OnceMap.indexBy (fun entry => !entry.compressed) compressEncoding tables.instTable

/-- `CEncToEntry` as `InitTableMapping` fills it. -/
def cEncToEntry (tables : Tables) : OnceMap.Map (BitVec 32) Nat :=
  OnceMap.indexBy (fun entry => entry.compressed) compressCEncoding tables.instTable

/-- `NameToEntry` as `InitTableMapping` fills it. -/
def nameToEntry (tables : Tables) : OnceMap.Map (List Char) Nat :=
  OnceMap.indexBy (fun _ => true) extractMnemonic tables.instTable

/-- The rows one `EnableExt` call appends. -/
def appended (feature : RevFeature) (call : RevExt × Bool) : List RevInstEntry :=
  call.1.table ++ if isModeEnabled feature .RV_C then
    call.1.ctable ++ if call.2 then call.1.otable else [] else []

@[simp] theorem pushEntries_extensions (tables : Tables) (rows : List RevInstEntry) :
    (pushEntries tables rows).extensions = tables.extensions := by
  unfold pushEntries
  generalize rows.zipIdx = items
  induction items generalizing tables with
  | nil => rfl
  | cons item rest ih => exact ih (pushEntry tables item)

@[simp] theorem pushEntries_instTable (tables : Tables) (rows : List RevInstEntry) :
    (pushEntries tables rows).instTable = tables.instTable ++ rows := by
  have pushed : ∀ items : List (RevInstEntry × Nat), ∀ tables : Tables,
      (items.foldl pushEntry tables).instTable = tables.instTable ++ items.map Prod.fst := by
    intro items
    induction items with
    | nil => simp
    | cons item rest ih =>
      intro tables
      rw [List.foldl_cons, ih]
      simp [pushEntry]
  rw [pushEntries, pushed, List.zipIdx_map_fst]

theorem enableExt_instTable (feature : RevFeature) (tables : Tables) (call : RevExt × Bool) :
    (enableExt feature tables call).instTable = tables.instTable ++ appended feature call := by
  unfold enableExt appended
  by_cases compressed : isModeEnabled feature .RV_C = true
  · by_cases opt : call.2 = true <;> simp [compressed, opt]
  · simp [compressed]

theorem seedInstTable_instTable (feature : RevFeature) :
    (seedInstTable feature).instTable = (enabledExts feature).flatMap (appended feature) := by
  have fold : ∀ calls : List (RevExt × Bool), ∀ tables : Tables,
      (calls.foldl (enableExt feature) tables).instTable =
        tables.instTable ++ calls.flatMap (appended feature) := by
    intro calls
    induction calls with
    | nil => simp
    | cons call rest ih =>
      intro tables
      rw [List.foldl_cons, ih, enableExt_instTable]
      simp
  rw [seedInstTable, fold]
  rfl

/-- A row that `EncToEntry` binds to `key`, unless an earlier one has it. -/
def isEnc (key : BitVec 32) (row : RevInstEntry) : Bool :=
  !row.compressed && decide (compressEncoding row = key)

def isCEnc (key : BitVec 32) (row : RevInstEntry) : Bool :=
  row.compressed && decide (compressCEncoding row = key)

theorem encToEntry_row (tables : Tables) (key : BitVec 32) (row : RevInstEntry) :
    tables.instTable.find? (isEnc key) = some row ↔
      ∃ entry, OnceMap.find (encToEntry tables) key = some entry ∧
        tables.instTable[entry]? = some row := by
  have bound := OnceMap.bind_indexBy (fun row : RevInstEntry => !row.compressed)
    compressEncoding tables.instTable key
  change _ = tables.instTable.find? (isEnc key) at bound
  rw [← bound]
  exact Option.bind_eq_some_iff

theorem cEncToEntry_row (tables : Tables) (key : BitVec 32) (row : RevInstEntry) :
    tables.instTable.find? (isCEnc key) = some row ↔
      ∃ entry, OnceMap.find (cEncToEntry tables) key = some entry ∧
        tables.instTable[entry]? = some row := by
  have bound := OnceMap.bind_indexBy (fun row : RevInstEntry => row.compressed)
    compressCEncoding tables.instTable key
  change _ = tables.instTable.find? (isCEnc key) at bound
  rw [← bound]
  exact Option.bind_eq_some_iff

-- The row a key selects is a row with that key and the right flag.
theorem encToEntry_sound (tables : Tables) (key : BitVec 32) (entry : Nat)
    (found : OnceMap.find (encToEntry tables) key = some entry) :
    ∃ row, tables.instTable[entry]? = some row ∧ row.compressed = false := by
  rw [encToEntry, OnceMap.find_indexBy, List.findIdx?_eq_some_iff_getElem] at found
  obtain ⟨bound, test, -⟩ := found
  refine ⟨tables.instTable[entry], List.getElem?_eq_getElem bound, ?_⟩
  simp only [Bool.and_eq_true, Bool.not_eq_true'] at test
  exact test.1

theorem encToEntry_none (tables : Tables) (key : BitVec 32)
    (absent : tables.instTable.find? (isEnc key) = none) :
    OnceMap.find (encToEntry tables) key = none := by
  cases found : OnceMap.find (encToEntry tables) key with
  | none => rfl
  | some entry =>
    obtain ⟨row, listed, -⟩ := encToEntry_sound tables key entry found
    have present := (encToEntry_row tables key row).mpr ⟨entry, found, listed⟩
    rw [absent] at present
    cases present

theorem cEncToEntry_sound (tables : Tables) (key : BitVec 32) (entry : Nat)
    (found : OnceMap.find (cEncToEntry tables) key = some entry) :
    ∃ row, tables.instTable[entry]? = some row ∧ row.compressed = true := by
  rw [cEncToEntry, OnceMap.find_indexBy, List.findIdx?_eq_some_iff_getElem] at found
  obtain ⟨bound, test, -⟩ := found
  refine ⟨tables.instTable[entry], List.getElem?_eq_getElem bound, ?_⟩
  simp only [Bool.and_eq_true] at test
  exact test.1

/-- Every row of `table` is full width and every row of the two other vectors is compressed. -/
def Sorted (ext : RevExt) : Prop :=
  (∀ row ∈ ext.table, row.compressed = false) ∧ (∀ row ∈ ext.ctable, row.compressed = true) ∧
    (∀ row ∈ ext.otable, row.compressed = true)

instance (ext : RevExt) : Decidable (Sorted ext) :=
  inferInstanceAs (Decidable ((∀ row ∈ ext.table, row.compressed = false) ∧
    (∀ row ∈ ext.ctable, row.compressed = true) ∧ (∀ row ∈ ext.otable, row.compressed = true)))

theorem enabledExts_sorted (feature : RevFeature) (call : RevExt × Bool)
    (member : call ∈ enabledExts feature) : Sorted call.1 :=
  enabledExts_forall feature Sorted (by decide) call member

theorem find_enc_appended (feature : RevFeature) (call : RevExt × Bool) (sorted : Sorted call.1)
    (key : BitVec 32) : (appended feature call).find? (isEnc key) = call.1.table.find? (isEnc key) := by
  have skipped : ∀ rows : List RevInstEntry, (∀ row ∈ rows, row.compressed = true) →
      rows.find? (isEnc key) = none := by
    intro rows flags
    apply List.find?_eq_none.mpr
    intro row member
    simp [isEnc, flags row member]
  have short := skipped call.1.ctable sorted.2.1
  have optional := skipped call.1.otable sorted.2.2
  unfold appended
  by_cases compressed : isModeEnabled feature .RV_C = true
  · by_cases opt : call.2 = true <;> simp [compressed, opt, List.find?_append, short, optional]
  · simp [compressed]

-- Full-width look-up sees the base tables only.
theorem find_enc_instTable (feature : RevFeature) (key : BitVec 32) :
    (seedInstTable feature).instTable.find? (isEnc key) =
      ((enabledExts feature).flatMap fun call => call.1.table).find? (isEnc key) := by
  rw [seedInstTable_instTable, List.find?_flatMap, List.find?_flatMap]
  have sorted := enabledExts_sorted feature
  generalize enabledExts feature = calls at sorted
  induction calls with
  | nil => rfl
  | cons call rest ih =>
    have head := find_enc_appended feature call (sorted call (by simp)) key
    have tail := ih (fun other member => sorted other (List.mem_cons_of_mem _ member))
    simp only [List.findSome?_cons, head, tail]

/-- The compressed rows one `EnableExt` call appends when C is enabled. -/
def shortRows (call : RevExt × Bool) : List RevInstEntry :=
  call.1.ctable ++ if call.2 then call.1.otable else []

theorem find_cenc_appended (feature : RevFeature) (compressed : isModeEnabled feature .RV_C = true)
    (call : RevExt × Bool) (sorted : Sorted call.1) (key : BitVec 32) :
    (appended feature call).find? (isCEnc key) = (shortRows call).find? (isCEnc key) := by
  have skipped : call.1.table.find? (isCEnc key) = none := by
    apply List.find?_eq_none.mpr
    intro row member
    simp [isCEnc, sorted.1 row member]
  simp [appended, shortRows, compressed, List.find?_append, skipped]

-- Compressed look-up sees the other two vectors only.
theorem find_cenc_instTable (feature : RevFeature) (compressed : isModeEnabled feature .RV_C = true)
    (key : BitVec 32) :
    (seedInstTable feature).instTable.find? (isCEnc key) =
      ((enabledExts feature).flatMap shortRows).find? (isCEnc key) := by
  rw [seedInstTable_instTable, List.find?_flatMap, List.find?_flatMap]
  have sorted := enabledExts_sorted feature
  generalize enabledExts feature = calls at sorted
  induction calls with
  | nil => rfl
  | cons call rest ih =>
    have head := find_cenc_appended feature compressed call (sorted call (by simp)) key
    have tail := ih (fun other member => sorted other (List.mem_cons_of_mem _ member))
    simp only [List.findSome?_cons, head, tail]

theorem flatMap_when (test : Bool) (calls : List (RevExt × Bool)) :
    (when test calls).flatMap shortRows = if test then calls.flatMap shortRows else [] := by
  cases test <;> rfl

-- The compressed rows of a model, by width: the other extensions have none.
theorem shortRows_wide (feature : RevFeature) (wide : feature.xlen = 64) :
    (enabledExts feature).flatMap shortRows =
      (if isModeEnabled feature .RV_I then rv32ICTable ++ rv64ICTable else []) ++
      (if isModeEnabled feature .RV_D then rv32DCTable else []) := by
  simp only [enabledExts, List.flatMap_append, flatMap_when, List.flatMap_cons, List.flatMap_nil]
  simp [wide, shortRows, rv32i, rv64i, rv32m, rv64m, rv32a, rv64a, rv32f, rv64f, rv32d, rv64d,
    rv64p]

theorem shortRows_narrow (feature : RevFeature) (narrow : feature.xlen = 32) :
    (enabledExts feature).flatMap shortRows =
      (if isModeEnabled feature .RV_I then rv32ICTable ++ rv32ICOTable else []) ++
      (if isModeEnabled feature .RV_D then rv32DCTable
        else if isModeEnabled feature .RV_F then rv32FCOTable else []) := by
  simp only [enabledExts, List.flatMap_append, flatMap_when, List.flatMap_cons, List.flatMap_nil]
  cases double : isModeEnabled feature .RV_D <;>
    simp [narrow, shortRows, rv32i, rv32m, rv32a, rv32f, rv64f, rv32d, rv64p]

end RevCPU.Seed
