import RevCPU.Boot
/-!
What the calls of LoadElf do to a memory that takes them, stage by stage, and the state in which a core then
starts.
-/
namespace RevCPU.Boot
open RegFile Mem Heap Elf Loader MemRefine Prefetch Regions Trace Run

def request (image : Image) (i : Nat) : Request := ⟨paddr image i, memsz image i, roundUpSize⟩

/-- A file that passes the loader's checks, and whose headers a memory of some bytes can take. -/
structure Bootable (image : Image) (memSize : Nat) : Prop where
  ready : image.Ready
  checked : image.Checked
  room : ∀ i < image.phnum, memsz image i ≠ 0 → (request image i).top ≤ memSize
  -- A header starts above those before it, or in the range of one of them.
  ordered : ∀ i < image.phnum, memsz image i ≠ 0 →
    (∀ j < i, memsz image j ≠ 0 → paddr image j ≤ paddr image i) ∨
      ∃ j < i, paddr image j ≤ paddr image i ∧ paddr image i < paddr image j + memsz image j
  sizes : ∀ i < image.phnum, Loads image i → filesz image i ≤ memsz image i
  -- No segment of whole pages is left with one line to fill.
  lines : ∀ i < image.phnum, Loads image i → memsz image i % roundUpSize = 0 →
    ¬ (memsz image i = filesz image i + 64 ∧ paddr image i % 64 = 0)
  table : image.phdrTable ≤ stackSize
  few : ∀ str sym, image.Found str sym → image.sh sym image.format.shSize / image.format.symSize < 2 ^ 32

structure Progress where
  stack : Nat
  count : Nat
  flat : Nat → Byte
  entry : Nat
  names : List Byte → Option Nat

/-- The loader between two calls: the ranges of the first headers are in segments. -/
structure Stage (image : Image) (memSize : Nat) (progress : Progress) (loader : RevLoader) : Prop where
  size : loader.mem.memSize = memSize
  settled : Settled loader.mem
  arranged : Arranged memSize loader.mem
  stack : loader.mem.stacktop = progress.stack
  low : stackSize ≤ progress.stack
  high : progress.stack < memSize
  bases : ∀ seg ∈ loader.mem.memSegs,
    ∃ j < progress.count, memsz image j ≠ 0 ∧ seg.baseAddr = paddr image j
  held : ∀ j < progress.count, memsz image j ≠ 0 → ∀ cell, paddr image j ≤ cell →
    cell < (request image j).top → Covered loader.mem.memSegs cell
  bytes : byteAt loader.mem = progress.flat
  entry : loader.entry = progress.entry
  names : loader.symtable = progress.names

def Reads : Event → Prop
  | .read _ _ => True
  | _ => False

section Reads
variable {image : Image} {β : Type} {before : RevLoader → Prop} {after : β → RevLoader → Prop}

theorem leads_reads {run : Run Event β} (reads : All Reads run) :
    Leads (act image) before run fun _ => before := by
  apply leads_quiet
  intro event member loader
  have read := reads event member
  cases event with
  | read place len => rfl
  | _ => cases read

theorem leads_read_bind {base : Nat} {field : Field} {next : Nat → Run Event β}
    (rest : Leads (act image) before (next (image.get base field)) after) :
    Leads (act image) before (image.read base field >>= next) after := by
  have one : All Reads (image.read base field) := by
    rw [Image.read, all_emit_bind]
    exact ⟨trivial, all_pure _⟩
  refine leads_bind (leads_reads one) fun value same => ?_
  have read : (image.read base field).result = some (image.get base field) := rfl
  obtain rfl := Option.some.inj (read.symm.trans same)
  exact rest

theorem leads_readPh_bind {i : Nat} {field : Field} {next : Nat → Run Event β}
    (rest : Leads (act image) before (next (image.ph i field)) after) :
    Leads (act image) before (image.readPh i field >>= next) after := leads_read_bind rest

theorem leads_readSh_bind {i : Nat} {field : Field} {next : Nat → Run Event β}
    (rest : Leads (act image) before (next (image.sh i field)) after) :
    Leads (act image) before (image.readSh i field >>= next) after := leads_read_bind rest

theorem reads_sectionIs (i : Nat) (name : List Byte) : All Reads (image.sectionIs i name) := by
  have compared (place : Nat) : All Reads (image.strcmp place name) := by
    induction name generalizing place with
    | nil => exact all_pure _
    | cons char rest ih =>
      rw [Image.strcmp, all_emit_bind, all_ite]
      exact ⟨trivial, fun _ => ih _, fun _ => all_pure _⟩
  rw [Image.sectionIs, Image.all_readSh_bind]
  exact ⟨trivial, compared _⟩

theorem reads_sectionEnds : All Reads image.sectionEnds := by
  have one (i : Nat) (name : List Byte) (before : Nat) : All Reads (image.endOf i name before) := by
    rw [Image.endOf, all_bind_total (Image.result_sectionIs i name), all_ite, Image.all_readSh_bind,
      Image.all_readSh_bind]
    exact ⟨reads_sectionIs i name, fun _ => ⟨trivial, trivial, all_pure _⟩, fun _ => all_pure _⟩
  apply all_loop_of
  intro i ends
  rw [Image.sectionEnd, all_bind_total (Image.result_endOf i Image.bss _),
    all_bind_total (Image.result_endOf i Image.text _), all_bind_total (Image.result_endOf i Image.data _)]
  exact ⟨one i _ _, one i _ _, one i _ _, all_pure _⟩

theorem reads_checkSections : All Reads image.checkSections := by
  rw [Image.checkSections, all_refuse_bind, all_refuse_bind, Image.all_readSh_bind, Image.all_readSh_bind]
  exact fun _ _ => ⟨trivial, trivial, all_refuse _⟩

theorem reads_findTables : All Reads image.findTables := by
  have one (i : Nat) (name : List Byte) (before : Nat) : All Reads (image.pick i name before) := by
    rw [Image.pick, all_bind_total (Image.result_sectionIs i name)]
    exact ⟨reads_sectionIs i name, all_pure _⟩
  apply all_loop_of
  intro i tables
  rw [Image.findTable, Image.all_readSh_bind, all_ite, Image.all_readSh_bind, Image.all_readSh_bind,
    all_refuse_bind, all_bind_total (Image.result_pick i Image.strtab _),
    all_bind_total (Image.result_pick i Image.symtab _)]
  exact ⟨trivial, fun _ => all_pure _,
    fun _ => ⟨trivial, trivial, fun _ => ⟨one i _ _, one i _ _, all_pure _⟩⟩⟩

theorem reads_readName (place maxlen : Nat) : All Reads (image.readName place maxlen) := by
  rw [Image.readName, all_ite, all_emit_bind]
  exact ⟨fun _ => ⟨trivial, all_pure _⟩, fun _ => all_pure _⟩

end Reads

section Calls
variable {image : Image} {memSize : Nat} {progress : Progress} {loader : RevLoader}

theorem Stage.aligned (stage : Stage image memSize progress loader) : memSize % pageSize = 0 :=
  stage.size ▸ stage.settled.sized.aligned

theorem Stage.small (stage : Stage image memSize progress loader) : memSize < 2 ^ 32 :=
  stage.size ▸ stage.settled.sized.small

/-- Other segments or another stack leave a memory settled whose bytes and pages are the same. -/
theorem Stage.resettled (stage : Stage image memSize progress loader) {mem : RevMem} {sp : Nat}
    (size : mem.memSize = memSize) (top : mem.stacktop = sp) (arranged : Arranged memSize mem)
    (low : stackSize ≤ sp) (high : sp < memSize) (coherent : Coherent mem) (positive : mem.tlbSize ≠ 0) :
    Settled mem where
  sized := sized_arranged size top arranged stage.aligned stage.small low (Nat.le_of_lt high)
  coherent := coherent
  positive := positive

theorem Stage.valid (stage : Stage image memSize progress loader) {place : Nat}
    (above : progress.stack - stackSize ≤ place) (below : place < memSize) :
    loader.mem.isValidVirtAddr place = true := by
  have small := stage.small
  have low := stage.low
  have high := stage.high
  rw [← stage.stack] at low high above
  exact valid_stack low (by omega) above (by rw [stage.size]; exact below)

theorem Stage.written (stage : Stage image memSize progress loader) {mem : RevMem}
    (same : layout mem = layout loader.mem) (coherent : Coherent mem) {flat : Nat → Byte}
    (bytes : ∀ place, byteAt mem place = flat place) :
    Stage image memSize { progress with flat := flat } (loader.setMem mem) := by
  have fields := same
  simp only [layout, Prod.mk.injEq] at fields
  obtain ⟨size, tlb, segs, -, -, stack⟩ := fields
  have cached : mem.tlbSize ≠ 0 := by
    rw [tlb]
    exact stage.settled.positive
  constructor
  · exact size.trans stage.size
  · exact ⟨stage.settled.sized.of_layout same, coherent, cached⟩
  · constructor
    · rw [RevLoader.setMem_mem, segs]
      exact stage.arranged.sound
    · rw [RevLoader.setMem_mem, segs]
      exact stage.arranged.sorted
    · rw [RevLoader.setMem_mem, segs]
      exact stage.arranged.within
  · exact stack.trans stage.stack
  · exact stage.low
  · exact stage.high
  · rw [RevLoader.setMem_mem, segs]
    exact stage.bases
  · rw [RevLoader.setMem_mem, segs]
    exact stage.held
  · exact funext bytes
  · exact stage.entry
  · exact stage.names

theorem write_stage (stage : Stage image memSize progress loader) {addr len : Nat} (data : Buffer)
    (room : addr + len ≤ memSize)
    (valid : ∀ place, addr ≤ place → place < addr + len → loader.mem.isValidVirtAddr place = true)
    (behind : len = 64 → addr % 64 = 0 → loader.mem.isValidVirtAddr (addr + len) = true) :
    ∃ after, loader.write addr len data = .ok after ∧
      Stage image memSize { progress with flat := flatStore progress.flat addr len data } after := by
  have small := stage.small
  have start : (BitVec.ofNat 64 addr).toNat = addr := by
    rw [BitVec.toNat_ofNat]
    omega
  have size : (BitVec.ofNat 64 len).toNat = len := by
    rw [BitVec.toNat_ofNat]
    omega
  have stored := writeCacheLine_local 64 (BitVec.ofNat 64 addr) (BitVec.ofNat 64 len) (by decide)
    (by omega)
    (by
      rw [start, size]
      exact valid)
    (by
      rintro ⟨line, aligned⟩
      have whole : len = 64 := by
        rw [← size, line]
        rfl
      have start64 : addr % 64 = 0 := by
        rw [← start]
        exact congrArg BitVec.toNat aligned
      rw [start, size]
      exact behind whole start64)
    stage.settled.sized stage.settled.positive data stage.settled.coherent rfl
  obtain ⟨mem, stored, coherent, same, bytes⟩ := stored
  rw [start, size, stage.bytes] at bytes
  refine ⟨loader.setMem mem, ?_, stage.written same coherent bytes⟩
  rw [RevLoader.write, storeLine, stored]

theorem Bootable.fits (bootable : Bootable image memSize) (small : memSize < 2 ^ 32) {i : Nat}
    (inside : i < image.phnum) (some : memsz image i ≠ 0) : (request image i).Fits where
  round := (by decide : 0 < roundUpSize)
  size := Nat.pos_of_ne_zero some
  top := by
    have room := bootable.room i inside some
    omega

theorem segment_stage (bootable : Bootable image memSize) {i : Nat} (inside : i < image.phnum)
    (some : memsz image i ≠ 0) (stage : Stage image memSize { progress with count := i } loader) :
    ∃ last, act image loader (.segment (paddr image i) (memsz image i)) = .ok last ∧
      Stage image memSize { progress with count := i + 1 } last := by
  have small := stage.small
  have fits := bootable.fits small inside some
  have starts : (∀ seg ∈ loader.mem.memSegs, seg.baseAddr ≤ (request image i).base) ∨
      Covered loader.mem.memSegs (request image i).base := by
    rcases bootable.ordered i inside some with above | ⟨j, earlier, low, high⟩
    · left
      intro seg member
      obtain ⟨j, earlier, other, same⟩ := stage.bases seg member
      rw [same]
      exact above j earlier other
    · right
      have other : memsz image j ≠ 0 := by omega
      obtain ⟨_, _, within⟩ := rounded_top (bootable.fits small (Nat.lt_trans earlier inside) other)
      exact stage.held j earlier other _ low (Nat.lt_of_lt_of_le high within)
  obtain ⟨base, after, called, still, added⟩ :=
    add_arranged stage.arranged fits (bootable.room i inside some) starts
  have kept := added.only
  generalize after.memSegs = segs at kept
  refine ⟨loader.setMem after, ?_, ?_⟩
  · have taken : addRoundedMemSeg loader.mem (paddr image i) (memsz image i) roundUpSize =
        .ok (base, after) := called
    rw [act, taken]
  · have size : after.memSize = loader.mem.memSize := by rw [kept]
    have stack : after.stacktop = loader.mem.stacktop := by rw [kept]
    constructor
    · exact size.trans stage.size
    · have coherent := stage.settled.coherent
      rw [RevLoader.setMem_mem]
      apply stage.resettled (size.trans stage.size) (stack.trans stage.stack) still stage.low stage.high
      · rw [kept]
        exact ⟨coherent.exact, coherent.pages, coherent.blank, coherent.cached⟩
      · rw [kept]
        exact stage.settled.positive
    · exact still
    · exact stack.trans stage.stack
    · exact stage.low
    · exact stage.high
    · intro seg member
      rcases added.bases seg member with same | ⟨old, found, same⟩
      · exact ⟨i, Nat.lt_succ_self i, some, same⟩
      · obtain ⟨j, earlier, other, base⟩ := stage.bases old found
        exact ⟨j, Nat.lt_succ_of_lt earlier, other, same.trans base⟩
    · intro j earlier other cell low high
      rcases Nat.lt_succ_iff_lt_or_eq.mp earlier with before | rfl
      · exact added.kept cell (stage.held j before other cell low high)
      · exact added.range cell low high
    · rw [← stage.bytes, RevLoader.setMem_mem, kept]
      rfl
    · exact stage.entry
    · exact stage.names

theorem empty_stage {i : Nat} (none : memsz image i = 0)
    (stage : Stage image memSize { progress with count := i } loader) :
    Stage image memSize { progress with count := i + 1 } loader := by
  refine { stage with bases := ?_, held := ?_ }
  · intro seg member
    obtain ⟨j, earlier, other, base⟩ := stage.bases seg member
    exact ⟨j, Nat.lt_succ_of_lt earlier, other, base⟩
  · intro j earlier other
    rcases Nat.lt_succ_iff_lt_or_eq.mp earlier with before | rfl
    · exact stage.held j before other
    · exact absurd none other

theorem stackTop_stage (stage : Stage image memSize progress loader) {sp : Nat} (low : stackSize ≤ sp)
    (high : sp < memSize) :
    Stage image memSize { progress with stack := sp } (loader.setMem { loader.mem with stacktop := sp }) := by
  have coherent := stage.settled.coherent
  have arranged : Arranged memSize { loader.mem with stacktop := sp } :=
    ⟨stage.arranged.sound, stage.arranged.sorted, stage.arranged.within⟩
  have settled : Settled { loader.mem with stacktop := sp } :=
    stage.resettled stage.size rfl arranged low high
      ⟨coherent.exact, coherent.pages, coherent.blank, coherent.cached⟩ stage.settled.positive
  exact ⟨stage.size, settled, arranged, rfl, low, high, stage.bases, stage.held, stage.bytes, stage.entry,
    stage.names⟩

theorem entry_stage (stage : Stage image memSize progress loader) (addr : Nat) :
    Stage image memSize { progress with entry := addr } { loader with entry := addr } :=
  ⟨stage.size, stage.settled, stage.arranged, stage.stack, stage.low, stage.high, stage.bases, stage.held,
    stage.bytes, rfl, stage.names⟩

theorem symbol_stage (stage : Stage image memSize progress loader) (name : List Byte) (value : Nat) :
    Stage image memSize { progress with names := Function.update progress.names name (some value) }
      { loader with symtable := Function.update loader.symtable name (some value) } :=
  ⟨stage.size, stage.settled, stage.arranged, stage.stack, stage.low, stage.high, stage.bases, stage.held,
    stage.bytes, stage.entry, by rw [stage.names]⟩

end Calls
end RevCPU.Boot
