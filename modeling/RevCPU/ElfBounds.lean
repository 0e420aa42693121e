import RevCPU.ElfStages
/-!
When the loader trusts only what lies in the file. Its checks add modulo the width of the class, come behind
the first uses, and behind the first writes to the memory.
-/
namespace RevCPU.Elf
open Mem Trace Run

def Event.Writes : Event → Prop
  | .write _ _ _ => True
  | .fill _ memsz filesz => memsz ≠ filesz
  | _ => False

/-- Only what lies in the file is read, and a fatal error comes before the first write. -/
structure Trusted (size : Nat) (run : Run Event Unit) : Prop where
  safe : All (Event.Safe size) run
  early : run.result = none → All (fun event => ¬ event.Writes) run

namespace Image
variable (image : Image)

section Writes
variable {image}

theorem quiet_sectionIs (i : Nat) (name : List Byte) : All (¬ ·.Writes) (image.sectionIs i name) := by
  have compared (place : Nat) : All (¬ ·.Writes) (image.strcmp place name) := by
    induction name generalizing place with
    | nil => exact all_pure _
    | cons char rest ih =>
      rw [strcmp, all_emit_bind, all_ite]
      exact ⟨id, fun _ => ih _, fun _ => all_pure _⟩
  rw [sectionIs, all_readSh_bind]
  exact ⟨id, compared _⟩

theorem quiet_endOf (i : Nat) (name : List Byte) (before : Nat) :
    All (¬ ·.Writes) (image.endOf i name before) := by
  rw [endOf, all_bind_total (result_sectionIs i name), all_ite, all_readSh_bind, all_readSh_bind]
  exact ⟨quiet_sectionIs i name, fun _ => ⟨id, id, all_pure _⟩, fun _ => all_pure _⟩

theorem quiet_describe : All (¬ ·.Writes) image.describe := by
  have segment (i : Nat) : All (¬ ·.Writes) (image.addSegment i) := by
    simp [addSegment, all_ite, Event.Writes]
  have ending (i : Nat) (ends : Ends) : All (¬ ·.Writes) (image.sectionEnd i ends) := by
    rw [sectionEnd, all_bind_total (result_endOf i bss _), all_bind_total (result_endOf i text _),
      all_bind_total (result_endOf i data _)]
    exact ⟨quiet_endOf _ _ _, quiet_endOf _ _ _, quiet_endOf _ _ _, all_pure _⟩
  rw [describe, all_emit_bind, all_readSh_bind, all_emit_bind, all_bind_of_result result_addSegments,
    all_bind_total result_sectionEnds, all_refuse_bind, all_refuse_bind]
  exact ⟨id, id, id, all_loop_of (fun i _ => segment i) _, fun _ => ⟨all_loop_of ending _,
    fun _ _ => all_pure _⟩⟩

theorem quiet_checkSections : All (¬ ·.Writes) image.checkSections := by
  rw [checkSections, all_refuse_bind, all_refuse_bind, all_readSh_bind, all_readSh_bind]
  exact fun _ _ => ⟨id, id, all_refuse _⟩

theorem quiet_pick (i : Nat) (name : List Byte) (before : Nat) :
    All (¬ ·.Writes) (image.pick i name before) := by
  rw [pick, all_bind_total (result_sectionIs i name)]
  exact ⟨quiet_sectionIs i name, all_pure _⟩

theorem quiet_findTables : All (¬ ·.Writes) image.findTables := by
  apply all_loop_of
  intro i tables
  rw [findTable, all_readSh_bind, all_ite, all_readSh_bind, all_readSh_bind, all_refuse_bind,
    all_bind_total (result_pick i strtab _), all_bind_total (result_pick i symtab _)]
  refine ⟨id, fun _ => all_pure _, fun _ => ⟨id, id, fun _ => ?_⟩⟩
  exact ⟨quiet_pick _ _ _, quiet_pick _ _ _, all_pure _⟩

theorem quiet_readName (place maxlen : Nat) : All (¬ ·.Writes) (image.readName place maxlen) := by
  rw [readName, all_ite, all_emit_bind]
  exact ⟨fun _ => ⟨id, all_pure _⟩, fun _ => all_pure _⟩

theorem quiet_addSymbols (tables : Tables) : All (¬ ·.Writes) (image.addSymbols tables) := by
  have one (strtab symtab i : Nat) : All (¬ ·.Writes) (image.addSymbol tables strtab symtab i) := by
    rw [addSymbol, all_readSh_bind, all_read_bind, all_refuse_bind, all_bind_total (result_readName _ _),
      all_refuse_bind, all_read_bind, all_emit]
    exact ⟨id, id, fun _ => ⟨quiet_readName _ _, fun _ => ⟨id, id⟩⟩⟩
  have ending (count : Nat) : All (¬ ·.Writes) (again count) := by
    rw [again, all_ite]
    exact ⟨fun _ => (all_emit _).mpr id, fun _ => all_pure _⟩
  rw [addSymbols, all_ite, all_readSh_bind, all_readSh_bind, all_readSh_bind, all_bind]
  exact ⟨fun _ => ⟨id, id, id, all_loop_of (fun i _ => one _ _ i) _, fun _ _ => ending _⟩,
    fun _ => all_pure _⟩

theorem quiet_writeHeaders (stackTop : Nat) :
    All (¬ ·.Writes) (image.writeHeaders stackTop) ↔ image.phnum = 0 := by
  have some : image.phdrTable ≠ 0 ↔ image.phnum ≠ 0 := by
    rw [phdrTable, Nat.mul_ne_zero_iff]
    exact and_iff_left image.format.phdrSome.ne'
  rw [writeHeaders, all_bind_total (result_writeFile _ _ _), writeFile, all_ite, all_emit, all_emit, some]
  constructor
  · rintro ⟨⟨write, -⟩, -⟩
    exact not_not.mp fun more => write more trivial
  · intro none
    exact ⟨⟨fun more => absurd none more, fun _ => all_pure _⟩, id⟩

theorem quiet_loadSegments (none : image.phnum = 0) : All (¬ ·.Writes) image.loadSegments := by
  rw [loadSegments, none]
  exact all_pure _

end Writes

section Run

structure Checked : Prop where
  listed : image.Listed
  sections : ∀ i < image.shnum, image.Passes i
  symbols : ∀ str sym, image.Found str sym → ∀ i < image.symbolCount sym, image.SymbolFits str sym i

/-- What is read from the first write on lies in the file, and no check is left that stops the loader once it
has written. -/
structure Loaded : Prop where
  table : image.TableIn
  segments : ∀ i < image.phnum, image.SegmentIn i
  strings : (image.shoff + image.shdrTable) % 2 ^ 64 ≤ image.size → image.shstrndx < image.shnum →
    image.Has (image.shdr image.shstrndx) image.format.shSize
  sections : image.Listed → ∀ i < image.shnum, (∀ j < i, image.Passes j) → image.SectionIn i
  symbols : image.Listed → (∀ i < image.shnum, image.Passes i) → ∀ str sym, image.Found str sym →
    ∀ i < image.symbolCount sym, (∀ j < i, image.SymbolFits str sym j) → image.SymbolIn str sym i
  checked : image.phnum ≠ 0 → image.Checked

structure Bounded : Prop extends image.Described where
  loaded : image.Ready → image.Loaded

variable {image}

theorem result_loadElf (stackTop : Nat) : (image.loadElf stackTop).result = none ↔
    (image.Ready → (∀ i < image.phnum, image.Fills i) → ¬ image.Checked) := by
  rw [loadElf, result_bind_of_result result_describe]
  by_cases ready : image.Ready
  · rw [if_pos ready, result_bind_total (result_writeHeaders _),
      result_bind_of_result (result_loadSegments ready.headers),
      result_bind_of_result result_checkSections, result_bind_of_result result_findTables,
      result_bind_of_result (result_addSymbols image.tables.strtab image.tables.symtab), result_emit]
    by_cases fills : ∀ i < image.phnum, image.Fills i
    swap
    · rw [if_neg fills]
      exact iff_of_true rfl fun _ other => absurd other fills
    rw [if_pos fills]
    by_cases listed : image.Listed
    · rw [if_pos listed]
      by_cases sections : ∀ i < image.shnum, image.Passes i
      · rw [if_pos sections]
        by_cases symbols : image.tables.strtab ≠ 0 ∧ image.tables.symtab ≠ 0 →
            ∀ i < image.symbolCount image.tables.symtab,
              image.SymbolFits image.tables.strtab image.tables.symtab i
        · rw [if_pos symbols]
          exact iff_of_false nofun fun other =>
            other ready fills ⟨listed, sections, forall_found.mpr symbols⟩
        · rw [if_neg symbols]
          exact iff_of_true rfl fun _ _ checked => symbols (forall_found.mp checked.symbols)
      · rw [if_neg sections]
        exact iff_of_true rfl fun _ _ checked => sections checked.sections
    · rw [if_neg listed]
      exact iff_of_true rfl fun _ _ checked => listed checked.listed
  · rw [if_neg ready]
    exact iff_of_true rfl fun other => absurd other ready

theorem table_has {name : List Byte} {i : Nat}
    (sections : ∀ i < image.shnum, (∀ j < i, image.Passes j) → image.SectionIn i)
    (passes : ∀ i < image.shnum, image.Passes i) (table : image.IsTable name i) :
    image.Has (image.shdr i) image.format.shOffset ∧ image.Has (image.shdr i) image.format.shSize := by
  have read := sections i table.1 fun j before => passes j (Nat.lt_trans before table.1)
  rcases read.2 table.2.1.1 with ⟨offset, size, -⟩
  exact ⟨offset, size⟩

theorem safe_tables (sections : ∀ i < image.shnum, (∀ j < i, image.Passes j) → image.SectionIn i)
    (passes : ∀ i < image.shnum, image.Passes i) :
    All (Event.Safe image.size) (image.addSymbols image.tables) ↔ ∀ str sym, image.Found str sym →
      ∀ i < image.symbolCount sym, (∀ j < i, image.SymbolFits str sym j) → image.SymbolIn str sym i := by
  have has : ∀ str sym, image.Found str sym →
      (image.Has (image.shdr str) image.format.shOffset ∧ image.Has (image.shdr str) image.format.shSize) ∧
      image.Has (image.shdr sym) image.format.shOffset ∧ image.Has (image.shdr sym) image.format.shSize :=
    fun str sym found => ⟨table_has sections passes found.strings, table_has sections passes found.symbols⟩
  rw [forall_found]
  exact safe_addSymbols _ _ (forall_found.mp has)

theorem safe_loadElf (header : image.format.ehdrSize ≤ image.size) (stackTop : Nat) :
    All (Event.Safe image.size) (image.loadElf stackTop) ↔ image.Described ∧ (image.Ready →
      image.TableIn ∧ (∀ i < image.phnum, image.SegmentIn i) ∧
        All (Event.Safe image.size) image.checkSections ∧ (image.Listed →
          All (Event.Safe image.size) image.findTables ∧ ((∀ i < image.shnum, image.Passes i) →
            All (Event.Safe image.size) (image.addSymbols image.tables)))) := by
  rw [loadElf, all_bind_of_result result_describe, safe_describe header]
  apply and_congr_right'
  apply forall_congr'
  intro ready
  rw [all_bind_total (result_writeHeaders _), safe_writeHeaders,
    all_bind_of_result (result_loadSegments ready.headers), all_bind_of_result result_checkSections,
    all_bind_of_result result_findTables,
    all_bind_of_result (result_addSymbols image.tables.strtab image.tables.symtab), all_emit]
  simp only [Event.Safe, implies_true, and_true]
  refine and_congr_right fun table => ?_
  rw [safe_loadSegments ready.headers table]
  refine and_congr_right fun segments => ?_
  exact ⟨fun rest => rest fun i inside => (segments i inside).fills, fun rest _ => rest⟩

theorem quiet_loadElf (stackTop : Nat) :
    All (¬ ·.Writes) (image.loadElf stackTop) ↔ (image.Ready → image.phnum = 0) := by
  rw [loadElf, all_bind_of_result result_describe]
  constructor
  · intro all ready
    have rest := (all_bind_total (result_writeHeaders _)).mp (all.2 ready)
    exact (quiet_writeHeaders _).mp rest.1
  · intro none
    refine ⟨quiet_describe, fun ready => ?_⟩
    rw [all_bind_total (result_writeHeaders _), all_bind_of_result (result_loadSegments ready.headers),
      all_bind_of_result result_checkSections, all_bind_of_result result_findTables,
      all_bind_of_result (result_addSymbols image.tables.strtab image.tables.symtab), all_emit]
    exact ⟨(quiet_writeHeaders _).mpr (none ready), quiet_loadSegments (none ready), fun _ =>
      ⟨quiet_checkSections, fun _ => ⟨quiet_findTables, fun _ => ⟨quiet_addSymbols _, fun _ => nofun⟩⟩⟩⟩

theorem trusted_iff (image : Image) (header : image.format.ehdrSize ≤ image.size) (stackTop : Nat) :
    Trusted image.size (image.loadElf stackTop) ↔ image.Bounded := by
  constructor
  · rintro ⟨all, early⟩
    rcases (safe_loadElf header stackTop).mp all with ⟨described, rest⟩
    refine ⟨described, fun ready => ?_⟩
    rcases rest ready with ⟨table, segments, strings, tables⟩
    have sections (listed : image.Listed) := safe_findTables.mp (tables listed).1
    refine ⟨table, segments, ?_, sections, ?_, ?_⟩
    · exact fun listed inside => (safe_checkSections.mp strings listed inside).2
    · exact fun listed passes => (safe_tables (sections listed) passes).mp ((tables listed).2 passes)
    · intro some
      by_contra unchecked
      have quiet := early ((result_loadElf stackTop).mpr fun _ _ => unchecked)
      exact some ((quiet_loadElf stackTop).mp quiet ready)
  · intro bounded
    constructor
    · refine (safe_loadElf header stackTop).mpr ⟨bounded.toDescribed, fun ready => ?_⟩
      have loaded := bounded.loaded ready
      refine ⟨loaded.table, loaded.segments, ?_, ?_⟩
      · exact safe_checkSections.mpr fun table inside => ⟨bounded.strings, loaded.strings table inside⟩
      · intro listed
        refine ⟨safe_findTables.mpr (loaded.sections listed), fun passes => ?_⟩
        exact (safe_tables (loaded.sections listed) passes).mpr (loaded.symbols listed passes)
    · intro stopped
      apply (quiet_loadElf stackTop).mpr
      intro ready
      by_contra some
      have loaded := bounded.loaded ready
      have fills : ∀ i < image.phnum, image.Fills i := fun i inside => (loaded.segments i inside).fills
      exact (result_loadElf stackTop).mp stopped ready fills (loaded.checked some)

end Run
end Image

theorem elf_trusted_iff (file : File) (stackTop : Nat) :
    (elf32.ehdrSize ≤ file.size →
      (Trusted file.size (loadElf32 file stackTop) ↔ Image.Bounded ⟨file, elf32⟩)) ∧
    (elf64.ehdrSize ≤ file.size →
      (Trusted file.size (loadElf64 file stackTop) ↔ Image.Bounded ⟨file, elf64⟩)) :=
  ⟨fun header => Image.trusted_iff ⟨file, elf32⟩ header stackTop,
    fun header => Image.trusted_iff ⟨file, elf64⟩ header stackTop⟩

section Files

def fileOf (bytes : List (Nat × Byte)) (size : Nat) (bounded : size < 2 ^ 64) : File where
  bytes place := (bytes.lookup place).getD 0
  size := size
  bounded := bounded

/-- A segment of seven bytes, which is also .text, and the symbol main in it; .strtab has the names of the
sections and of the symbol. -/
def withSymbol : File :=
  fileOf [(32, 64), (40, 120), (56, 1), (60, 4), (62, 3),
    (64, 1), (72, 172), (73, 1), (89, 16), (96, 7), (104, 8),
    (184, 1), (188, 1), (201, 16), (208, 172), (209, 1), (216, 7),
    (248, 7), (252, 2), (272, 148), (273, 1), (280, 24),
    (312, 15), (316, 3), (336, 120), (337, 1), (344, 28),
    (377, 46), (378, 116), (379, 101), (380, 120), (381, 116),
    (383, 46), (384, 115), (385, 121), (386, 109), (387, 116), (388, 97), (389, 98),
    (391, 46), (392, 115), (393, 116), (394, 114), (395, 116), (396, 97), (397, 98),
    (399, 109), (400, 97), (401, 105), (402, 110),
    (404, 23), (413, 16)] 435 (by decide)

theorem withSymbol_bounded : Image.Bounded ⟨withSymbol, elf64⟩ where
  strings := by decide +kernel
  headers := by decide +kernel
  sections := by decide +kernel
  loaded := fun _ => {
    table := by decide +kernel
    segments := by decide +kernel
    strings := by decide +kernel
    sections := by decide +kernel
    symbols := fun _ _ => Image.forall_found.mpr (by decide +kernel)
    checked := fun _ => {
      listed := by decide +kernel
      sections := by decide +kernel
      symbols := Image.forall_found.mpr (by decide +kernel) } }

theorem elf_trusted_symbol : Trusted 435 (loadElf64 withSymbol 4096) ∧
    (loadElf64 withSymbol 4096).events.getLast? = some (.heap 4103) ∧
    Event.symbol [109, 97, 105, 110] 4096 ∈ (loadElf64 withSymbol 4096).events :=
  ⟨((elf_trusted_iff withSymbol 4096).2 (by decide)).mpr withSymbol_bounded, by decide +kernel,
    by decide +kernel⟩

/-- A segment of seven bytes, and the section .text, which is also the one of the names. -/
def oneSegment (memsz size : Byte) : File :=
  fileOf [(32, 64), (40, 120), (56, 1), (60, 2), (62, 1),
    (64, 1), (72, 248), (89, 16), (96, 7), (104, memsz),
    (184, 1), (188, 3), (201, 16), (208, 248), (216, size),
    (249, 46), (250, 116), (251, 101), (252, 120), (253, 116)] 255 (by decide)

/-- Only a header, with e_shoff 2^63. -/
def farSections : File := fileOf [(47, 128)] 64 (by decide)

/-- Sections far outside are read, a segment may be larger in the file than in the memory, and a section
that does not fit is refused once the program headers are written. -/
theorem malformed_not_trusted : ¬ Trusted 64 (loadElf64 farSections 4096) ∧
    ¬ Trusted 255 (loadElf64 (oneSegment 6 7) 4096) ∧ ¬ Trusted 255 (loadElf64 (oneSegment 8 8) 4096) := by
  constructor
  · intro trusted
    have read := trusted.safe (.read (2 ^ 63 + 24) 8) (by decide +kernel)
    exact absurd read (Nat.not_le.mpr (by decide))
  constructor
  · intro trusted
    have fill := trusted.safe (.fill 4103 6 7) (by decide +kernel)
    exact absurd fill (Nat.not_le.mpr (by decide))
  · intro trusted
    exact trusted.early (by decide +kernel) (.write 4040 64 56) (by decide +kernel) trivial

end Files
end RevCPU.Elf
