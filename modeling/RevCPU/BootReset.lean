import RevCPU.BootLoad
/-!
The state in which a core starts: a file that the loader accepts, over a memory that nothing has used.
-/
namespace RevCPU.Boot
open RegFile Mem Heap Elf Loader MemRefine Prefetch Regions Trace Run

/-- The loader once LoadElf32 or LoadElf64 has returned. -/
structure Loaded (image : Image) (memSize : Nat) (loader : RevLoader) : Prop where
  size : loader.mem.memSize = memSize
  settled : Settled loader.mem
  stack : loader.mem.stacktop = memSize - 1024 - image.phdrTable
  low : stackSize ≤ loader.mem.stacktop
  valid : ∀ i < image.phnum, memsz image i ≠ 0 → ∀ cell, paddr image i ≤ cell →
    cell < paddr image i + memsz image i → loader.mem.isValidVirtAddr cell = true
  bytes : byteAt loader.mem = contents image (tableOnly image (memSize - 1024)) image.phnum
  entry : loader.entry = image.get 0 image.format.eEntry
  names : loader.symtable = symbols image
  heap : loader.mem.heapstart = (Image.staticDataEnd image.ends + 1) % 2 ^ 64 ∧
    loader.mem.heapend = (Image.staticDataEnd image.ends + 1) % 2 ^ 64

section Load
variable {image : Image} {memSize : Nat} (bootable : Bootable image memSize)

include bootable in
theorem heap_loaded {progress : Progress} {loader : RevLoader} (stage : Stage image memSize progress loader)
    (stack : progress.stack = memSize - 1024 - image.phdrTable) (counted : progress.count = image.phnum)
    (bytes : progress.flat = contents image (tableOnly image (memSize - 1024)) image.phnum)
    (entry : progress.entry = image.get 0 image.format.eEntry) (names : progress.names = symbols image) :
    ∃ last, act image loader (.heap (Image.staticDataEnd image.ends)) = .ok last ∧
      Loaded image memSize last := by
  have some : Image.staticDataEnd image.ends ≠ 0 := (Image.ready_iff.mp bootable.ready).2.1
  have arranged := stage.arranged
  have coherent := stage.settled.coherent
  refine ⟨_, by rw [act, HeapMem.initHeap, if_neg some], ?_⟩
  constructor
  · exact stage.size
  · exact stage.resettled stage.size stage.stack ⟨arranged.sound, arranged.sorted, arranged.within⟩ stage.low
      stage.high ⟨coherent.exact, coherent.pages, coherent.blank, coherent.cached⟩ stage.settled.positive
  · exact stage.stack.trans stack
  · exact stage.stack ▸ stage.low
  · intro i inside some cell low high
    obtain ⟨_, _, within⟩ := rounded_top (bootable.fits stage.small inside some)
    have covered := stage.held i (counted ▸ inside) some cell low (Nat.lt_of_lt_of_le high within)
    exact valid_covered covered
  · exact stage.bytes.trans bytes
  · exact stage.entry.trans entry
  · exact stage.names.trans names
  · exact ⟨rfl, rfl⟩

theorem table_stored (fits : image.phdrTable ≤ memSize - 1024) :
    flatStore (fun _ => 0) (memSize - 1024 - image.phdrTable) image.phdrTable
      (fun index => image.byteAt (image.phoff + index)) = tableOnly image (memSize - 1024) := by
  funext cell
  rw [flatStore, tableOnly, Nat.sub_add_cancel fits]

def started (memSize : Nat) : Progress := ⟨memSize - 1024, 0, fun _ => 0, 0, fun _ => none⟩

include bootable in
theorem leads_loadElf (wide : 32 ≤ image.format.width) (small : memSize < 2 ^ 32)
    (big : stackSize + image.phdrTable + 1024 ≤ memSize) :
    Leads (act image) (Stage image memSize (started memSize)) (image.loadElf (memSize - 1024)) fun _ =>
      Loaded image memSize := by
  have headers := leads_writeHeaders
    { started memSize with count := image.phnum, entry := image.get 0 image.format.eEntry }
    bootable wide small (show stackSize + image.phdrTable ≤ memSize - 1024 by omega)
    (show memSize - 1024 < memSize by
      rw [stackSize] at big
      omega)
  apply leads_bind (leads_describe (started memSize) bootable)
  intro staticDataEnd described
  rw [Image.result_describe, if_pos bootable.ready] at described
  obtain rfl := Option.some.inj described
  apply leads_bind headers
  intro _ _
  have stored : flatStore (started memSize).flat (memSize - 1024 - image.phdrTable) image.phdrTable
      (fun index => image.byteAt (image.phoff + index)) = tableOnly image (memSize - 1024) :=
    table_stored (by omega)
  have segments := leads_loadSegments
    { started memSize with
      stack := memSize - 1024 - image.phdrTable
      entry := image.get 0 image.format.eEntry } bootable wide small (tableOnly image (memSize - 1024))
  rw [← stored] at segments
  apply leads_bind segments
  intro _ _
  apply leads_bind (leads_reads reads_checkSections)
  intro _ _
  apply leads_bind (leads_reads reads_findTables)
  intro tables found
  rw [Image.result_findTables, if_pos bootable.checked.sections] at found
  obtain rfl := Option.some.inj found
  apply leads_bind (leads_addSymbols
    { started memSize with
      stack := memSize - 1024 - image.phdrTable
      count := image.phnum
      flat := contents image (flatStore (started memSize).flat (memSize - 1024 - image.phdrTable)
        image.phdrTable fun index => image.byteAt (image.phoff + index)) image.phnum
      entry := image.get 0 image.format.eEntry } bootable.few)
  intro _ _
  apply leads_emit
  intro loader stage
  rw [stored] at stage
  exact heap_loaded bootable stage rfl rfl rfl rfl rfl

theorem fresh_stage {tlbSize : Nat} (heapstart heapend maxHeapSize : Nat) (aligned : memSize % pageSize = 0)
    (small : memSize < 2 ^ 32) (big : stackSize ≤ memSize - 1024) (cached : tlbSize ≠ 0) :
    Stage image memSize (started memSize) (freshLoader memSize tlbSize heapstart heapend maxHeapSize) := by
  have some : 0 < stackSize := by decide
  have high : memSize - 1024 < memSize := by omega
  have untouched := untouched_new memSize tlbSize heapstart heapend
  have size : (RevMem.new memSize tlbSize heapstart heapend).memSize = memSize := rfl
  have segs : (RevMem.new memSize tlbSize heapstart heapend).memSegs = [] := rfl
  have positive : (RevMem.new memSize tlbSize heapstart heapend).tlbSize ≠ 0 := cached
  have stack : (RevMem.new memSize tlbSize heapstart heapend).stacktop = memSize - 1024 := by
    change (memSize + 2 ^ 64 - 1024) % 2 ^ 64 = memSize - 1024
    omega
  rw [freshLoader]
  generalize RevMem.new memSize tlbSize heapstart heapend = mem at *
  have arranged : Arranged memSize mem := by
    constructor
    · rw [segs]
      exact fun _ member => absurd member List.not_mem_nil
    · rw [segs]
      exact List.Pairwise.nil
    · rw [segs]
      exact fun _ member => absurd member List.not_mem_nil
  have sized : Sized mem :=
    sized_arranged size stack arranged aligned small big (Nat.sub_le memSize 1024)
  constructor
  · exact size
  · exact ⟨sized, untouched.coherent, positive⟩
  · exact arranged
  · exact stack
  · exact big
  · exact high
  · intro seg member
    change seg ∈ mem.memSegs at member
    rw [segs] at member
    exact absurd member List.not_mem_nil
  · exact fun j none => absurd none (Nat.not_lt_zero j)
  · exact funext fun cell => untouched.byteAt cell
  · rfl
  · rfl

include bootable in
theorem loadClass_loaded {tlbSize : Nat} (heapstart heapend maxHeapSize : Nat)
    (wide : 32 ≤ image.format.width) (aligned : memSize % pageSize = 0) (small : memSize < 2 ^ 32)
    (big : stackSize + image.phdrTable + 1024 ≤ memSize) (cached : tlbSize ≠ 0) :
    ∃ loader, loadClass image (freshLoader memSize tlbSize heapstart heapend maxHeapSize) = .ok loader ∧
      Loaded image memSize loader := by
  have fresh : Stage image memSize (started memSize)
      (freshLoader memSize tlbSize heapstart heapend maxHeapSize) :=
    fresh_stage heapstart heapend maxHeapSize aligned small (by omega) cached
  have passes : (image.loadElf (memSize - 1024)).result ≠ none := fun refused =>
    (Image.result_loadElf _).mp refused bootable.ready
      (fun i inside type some short => absurd (bootable.sizes i inside ⟨type, some⟩) (Nat.not_le.mpr short.2))
      bootable.checked
  obtain ⟨value, ended⟩ := Option.ne_none_iff_exists'.mp passes
  obtain ⟨loader, performed, loaded⟩ := leads_loadElf bootable wide small big _ value fresh ended
  refine ⟨loader, ?_, loaded⟩
  have stack : (freshLoader memSize tlbSize heapstart heapend maxHeapSize).mem.stacktop = memSize - 1024 :=
    fresh.stack
  rw [loadClass, stack, performed]
  exact if_neg passes

end Load

section Args
variable {mem : RevMem} (settled : Settled mem)
  (area : ∀ place, mem.stacktop + 48 ≤ place → place < mem.memSize → mem.isValidVirtAddr place = true)
  (exe args : List Byte)
  (fits : mem.stacktop + 60 + 8 * (argvOf exe args).length + stringsSize (argvOf exe args) ≤ mem.memSize)
include settled area fits

theorem loadProgramArgs_kept (last : ∀ arg ∈ (argvOf exe args).getLast?, arg.length ≠ 63) :
    ∃ after, loadProgramArgs storeLine (BitVec.ofNat 64 mem.memSize) (BitVec.ofNat 64 mem.stacktop) exe args
        mem = .ok (argvOf exe args, after) ∧ Kept mem after ∧
      ∀ cell < mem.stacktop + 48, byteAt after cell = byteAt mem cell := by
  have order := stringOrder_eq settled exe args fits
  unfold loadProgramArgs
  dsimp only
  rw [order]
  generalize argvOf exe args = argv at fits last
  have whole : stringsSize argv.reverse = stringsSize argv := stringsSize_reverse argv
  have places : BitVec.ofNat 64 mem.stacktop + 48 = BitVec.ofNat 64 (mem.stacktop + 48) ∧
      BitVec.ofNat 64 (mem.stacktop + 48) + 4 = BitVec.ofNat 64 (mem.stacktop + 52) ∧
      BitVec.ofNat 64 (mem.stacktop + 52) + 8 = BitVec.ofNat 64 (mem.stacktop + 60) :=
    ⟨(BitVec.ofNat_add _ _).symm, (BitVec.ofNat_add _ _).symm, (BitVec.ofNat_add _ _).symm⟩
  rw [places.1, places.2.1, places.2.2]
  obtain ⟨first, counted, kept, bytes⟩ := storeLine_ok settled area (mem.stacktop + 48) 4 (Nat.le_refl _)
    (by omega) (fun whole => nomatch whole) (bytesOf (BitVec.ofNat 32 argv.length))
    ⟨settled.coherent, rfl⟩
  obtain ⟨second, copied, kept, -, aside⟩ := storeStrings_ok settled area argv.reverse mem.memSize
    (by omega) (Nat.le_refl _) (by
      intro arg head long
      rw [List.head?_reverse] at head
      exact absurd long (last arg head)) kept
  rw [whole] at copied aside
  obtain ⟨third, based, kept, base⟩ := storeLine_ok settled area (mem.stacktop + 52) 8 (by omega) (by omega)
    (fun whole => nomatch whole) (bytesOf (BitVec.ofNat 64 (mem.stacktop + 60))) kept
  obtain ⟨after, pointed, kept, -, left⟩ := storePointers_ok settled area argv
    (mem.memSize - stringsSize argv) (mem.stacktop + 60) (by omega) (by omega) (by omega) kept
  refine ⟨after, ?_, kept, ?_⟩
  · rw [show (4 : BitVec 64) = BitVec.ofNat 64 4 from rfl, counted]
    dsimp only
    rw [copied]
    dsimp only
    rw [show (8 : BitVec 64) = BitVec.ofNat 64 8 from rfl, based]
    dsimp only
    rw [pointed]
  · intro cell below
    rw [left cell (by omega), base cell, flatStore, if_neg (by omega), aside cell (by omega), bytes cell,
      flatStore, if_neg (by omega)]

end Args

/-- The header of a file is one that the loader goes on with. -/
structure Accepted (file : File) : Prop where
  header : elf64.ehdrSize ≤ file.size
  rv : isRVElf32 file = true ∨ isRVElf64 file = true
  little : isRVLittle file = true

/-- A file, arguments and options for a core with a memory of some bytes, and the address where it starts. -/
structure Fitting (file : File) (exe args : List Byte) (opts : StartOpts) (memSize tlbSize start : Nat) :
    Prop where
  accepted : Accepted file
  bootable : Bootable (imageOf file) memSize
  aligned : memSize % pageSize = 0
  small : memSize < 2 ^ 32
  big : stackSize + (imageOf file).phdrTable + 1024 ≤ memSize
  cached : tlbSize ≠ 0
  room : 60 + 8 * (argvOf exe args).length + stringsSize (argvOf exe args) ≤
    1024 + (imageOf file).phdrTable
  -- The write of a last argument of 63 characters goes on behind the memory.
  last : ((argvOf exe args).getLast (List.cons_ne_nil _ _)).length ≠ 63
  starts : startOf opts (fun name => (symbols (imageOf file) name).getD 0) = some start

/-- What a core starts with. Below the arguments lies what the program headers say, and nothing else. -/
structure Booted (image : Image) (memSize : Nat) (argv : List (List Byte)) (start : Nat)
    (loader : RevLoader) (regs : RevRegFile) : Prop where
  settled : Settled loader.mem
  size : loader.mem.memSize = memSize
  stack : loader.mem.stacktop = memSize - 1024 - image.phdrTable
  bytes : ∀ cell < loader.mem.stacktop + 48,
    byteAt loader.mem cell = contents image (tableOnly image (memSize - 1024)) image.phnum cell
  valid : ∀ i < image.phnum, memsz image i ≠ 0 → ∀ cell, paddr image i ≤ cell →
    cell < paddr image i + memsz image i → loader.mem.isValidVirtAddr cell = true
  args : Intact (byteAt loader.mem) argv loader.mem.stacktop memSize regs
  entry : loader.entry = image.get 0 image.format.eEntry
  names : loader.symtable = symbols image
  heap : loader.mem.heapstart = (Image.staticDataEnd image.ends + 1) % 2 ^ 64 ∧
    loader.mem.heapend = (Image.staticDataEnd image.ends + 1) % 2 ^ 64
  regs : regs = reset (BitVec.ofNat 64 loader.mem.stacktop)
    (BitVec.ofNat 64 ((symbols image globalPointer).getD 0)) (BitVec.ofNat 64 start) argv

section Boot
variable {file : File} {exe args : List Byte} {opts : StartOpts} {memSize tlbSize start : Nat}

theorem imageOf_wide : 32 ≤ (imageOf file).format.width := by
  rw [imageOf]
  cases isRVElf32 file with
  | true => exact (by decide : 32 ≤ elf32.width)
  | false => exact (by decide : 32 ≤ elf64.width)

theorem args_loaded (fitting : Fitting file exe args opts memSize tlbSize start) {loader : RevLoader}
    (loaded : Loaded (imageOf file) memSize loader) :
    ∃ mem, loadProgramArgs storeLine (BitVec.ofNat 64 loader.mem.memSize)
        (BitVec.ofNat 64 loader.mem.stacktop) exe args loader.mem = .ok (argvOf exe args, mem) ∧
      Kept loader.mem mem ∧ (∀ cell < loader.mem.stacktop + 48, byteAt mem cell = byteAt loader.mem cell) ∧
      ∀ gp pc : BitVec 64, Intact (byteAt mem) (argvOf exe args) loader.mem.stacktop loader.mem.memSize
        (reset (BitVec.ofNat 64 mem.stacktop) gp pc (argvOf exe args)) := by
  have settled := loaded.settled
  have size := loaded.size
  have stack := loaded.stack
  have bottom := loaded.low
  have small := fitting.small
  have big := fitting.big
  have fits := fitting.room
  have area : ∀ place, loader.mem.stacktop + 48 ≤ place → place < loader.mem.memSize →
      loader.mem.isValidVirtAddr place = true := by
    intro place above below
    exact valid_stack bottom (by omega) (by omega) below
  have room : loader.mem.stacktop + 60 + 8 * (argvOf exe args).length + stringsSize (argvOf exe args) ≤
      loader.mem.memSize := by omega
  have other : ∀ arg ∈ (argvOf exe args).getLast?, arg.length ≠ 63 := by
    intro arg member
    have found := List.getLast?_eq_some_getLast (List.cons_ne_nil exe (splitStr 32 args))
    obtain rfl := Option.some.inj (found.symm.trans member)
    exact fitting.last
  obtain ⟨mem, issued, kept, same⟩ := loadProgramArgs_kept settled area exe args room other
  obtain ⟨mem', issued', placed⟩ := loadProgramArgs_ok settled area exe args room other
  obtain ⟨-, rfl⟩ := Prod.mk.inj (Except.ok.inj (issued.symm.trans issued'))
  exact ⟨mem, issued, kept, same, fun gp pc => placed.intact settled exe args room gp pc⟩

theorem boot_booted (fitting : Fitting file exe args opts memSize tlbSize start)
    (heapstart heapend maxHeapSize : Nat) :
    ∃ loader regs, boot file exe args opts (freshLoader memSize tlbSize heapstart heapend maxHeapSize) =
        .ok (loader, regs) ∧ Booted (imageOf file) memSize (argvOf exe args) start loader regs := by
  obtain ⟨loader, classed, loaded⟩ := loadClass_loaded fitting.bootable heapstart heapend maxHeapSize
    imageOf_wide fitting.aligned fitting.small fitting.big fitting.cached
  obtain ⟨mem, issued, kept, same, intact⟩ := args_loaded fitting loaded
  have fields := kept.layout
  simp only [layout, Prod.mk.injEq] at fields
  obtain ⟨total, tlb, segs, heapEnd, heapStart, top⟩ := fields
  have found : (loader.setMem mem).getSymbolAddr = fun name => (symbols (imageOf file) name).getD 0 := by
    funext name
    rw [RevLoader.getSymbolAddr, RevLoader.setMem_symtable, loaded.names]
  have cached : mem.tlbSize ≠ 0 := by
    rw [tlb]
    exact loaded.settled.positive
  refine ⟨loader.setMem mem, reset (BitVec.ofNat 64 mem.stacktop)
    (BitVec.ofNat 64 ((symbols (imageOf file) globalPointer).getD 0)) (BitVec.ofNat 64 start)
    (argvOf exe args), ?_, ?_⟩
  · have rv : (!isRVElf32 file && !isRVElf64 file) = false := by
      rcases fitting.accepted.rv with narrow | wide
      · rw [narrow]
        rfl
      · rw [wide, Bool.not_true, Bool.and_false]
    rw [boot, loadElf, if_neg (Nat.not_lt.mpr fitting.accepted.header), rv, fitting.accepted.little, classed]
    dsimp only
    rw [if_neg Bool.false_ne_true, if_neg (by decide), issued]
    dsimp only
    rw [resetRegs, found, fitting.starts]
    rfl
  refine ⟨⟨loaded.settled.sized.of_layout kept.layout, kept.coherent, cached⟩, total.trans loaded.size,
    top.trans loaded.stack, ?_, ?_, ?_, loaded.entry, loaded.names, ?_, rfl⟩
  · intro cell below
    rw [RevLoader.setMem_mem, top] at below
    rw [RevLoader.setMem_mem, same cell below, loaded.bytes]
  · intro i inside some cell low high
    rw [RevLoader.setMem_mem, isValidVirtAddr_layout kept.layout]
    exact loaded.valid i inside some cell low high
  · have placed := intact (BitVec.ofNat 64 ((symbols (imageOf file) globalPointer).getD 0))
      (BitVec.ofNat 64 start)
    rw [← top, loaded.size] at placed
    exact placed
  · exact ⟨heapStart.trans loaded.heap.1, heapEnd.trans loaded.heap.2⟩

theorem contents_of {image : Image} (before : Nat → Byte) {i k count : Nat} (loads : Loads image i)
    (inside : i < count) (reached : k < memsz image i) (apart : ∀ j < count, i < j → Loads image j →
      ¬ (paddr image j ≤ paddr image i + k ∧ paddr image i + k < paddr image j + memsz image j)) :
    contents image before count (paddr image i + k) =
      if k < filesz image i then image.byteAt (offset image i + k) else 0 := by
  induction count with
  | zero => exact absurd inside (Nat.not_lt_zero i)
  | succ count ih =>
    rw [contents]
    rcases Nat.lt_succ_iff_lt_or_eq.mp inside with earlier | rfl
    · rw [if_neg fun both => apart count (Nat.lt_succ_self count) earlier both.1 both.2]
      exact ih earlier fun j below => apart j (Nat.lt_succ_of_lt below)
    · rw [if_pos ⟨loads, Nat.le_add_right _ _, Nat.add_lt_add_left reached _⟩, Nat.add_sub_cancel_left]
      exact if_congr (Nat.add_lt_add_iff_left) rfl rfl

theorem contents_outside {image : Image} (before : Nat → Byte) {cell count : Nat}
    (apart : ∀ i < count, Loads image i → ¬ (paddr image i ≤ cell ∧ cell < paddr image i + memsz image i)) :
    contents image before count cell = before cell := by
  induction count with
  | zero => rfl
  | succ count ih =>
    rw [contents, if_neg fun both => apart count (Nat.lt_succ_self count) both.1 both.2]
    exact ih fun i below => apart i (Nat.lt_succ_of_lt below)

/-- Segments that keep clear of each other and of the stack are in memory as the file has them, everything
else below the stack is zero, and main finds its arguments and a start address. -/
theorem segments_loaded (fitting : Fitting file exe args opts memSize tlbSize start)
    (heapstart heapend maxHeapSize : Nat)
    (apart : ∀ i < (imageOf file).phnum, ∀ j < i, Loads (imageOf file) i → Loads (imageOf file) j →
      paddr (imageOf file) j + memsz (imageOf file) j ≤ paddr (imageOf file) i ∨
        paddr (imageOf file) i + memsz (imageOf file) i ≤ paddr (imageOf file) j)
    (under : ∀ i < (imageOf file).phnum, Loads (imageOf file) i →
      paddr (imageOf file) i + memsz (imageOf file) i ≤ memSize - 1024 - (imageOf file).phdrTable) :
    ∃ loader regs, boot file exe args opts (freshLoader memSize tlbSize heapstart heapend maxHeapSize) =
        .ok (loader, regs) ∧
      (∀ i < (imageOf file).phnum, Loads (imageOf file) i → ∀ k < memsz (imageOf file) i,
        loader.mem.isValidVirtAddr (paddr (imageOf file) i + k) = true ∧
        byteAt loader.mem (paddr (imageOf file) i + k) = if k < filesz (imageOf file) i then
          (imageOf file).byteAt (offset (imageOf file) i + k) else 0) ∧
      (∀ cell < loader.mem.stacktop, (∀ i < (imageOf file).phnum, Loads (imageOf file) i →
        ¬ (paddr (imageOf file) i ≤ cell ∧ cell < paddr (imageOf file) i + memsz (imageOf file) i)) →
        byteAt loader.mem cell = 0) ∧
      Intact (byteAt loader.mem) (argvOf exe args) loader.mem.stacktop memSize regs ∧
      (∀ name, loader.getSymbolAddr name = (symbols (imageOf file) name).getD 0) ∧
      regs.rv64PC = BitVec.ofNat 64 start := by
  obtain ⟨loader, regs, booted, state⟩ := boot_booted fitting heapstart heapend maxHeapSize
  refine ⟨loader, regs, booted, ?_, ?_, state.args, ?_, ?_⟩
  · intro i inside loads k reached
    constructor
    · exact state.valid i inside loads.2 _ (Nat.le_add_right _ _) (Nat.add_lt_add_left reached _)
    · have below := under i inside loads
      rw [state.bytes _ (by rw [state.stack]; omega)]
      apply contents_of _ loads inside reached
      intro j listed later other
      have clear := apart j listed i later other loads
      omega
  · intro cell below clear
    rw [state.bytes cell (by omega), contents_outside _ clear, tableOnly]
    rw [state.stack] at below
    exact if_neg (by omega)
  · intro name
    rw [RevLoader.getSymbolAddr, state.names]
  · rw [state.regs]
    rfl

/-- A segment of 14 bytes of code in 32 bytes of memory, and the section .text. -/
def squareFile : File :=
  fileOf [(0, 127), (1, 69), (2, 76), (3, 70), (4, 2), (5, 1), (32, 64), (40, 120), (56, 1), (60, 2), (62, 1),
    (64, 1), (73, 1), (90, 2), (96, 14), (104, 32),
    (184, 1), (188, 3), (202, 2), (208, 248), (216, 7),
    (249, 46), (250, 116), (251, 101), (252, 120), (253, 116),
    (256, 21), (257, 69), (258, 51), (259, 5), (260, 165), (261, 2), (262, 35), (263, 60), (264, 161),
    (265, 254), (266, 103), (267, 128)] 270 (by decide)

theorem squareFile_fitting : Fitting squareFile [97] [] { startAddr := 131072 } 2097152 16 131072 := by
  have nameless {str sym : Nat} (found : Image.Found (imageOf squareFile) str sym) : False := by
    have none : ∀ i < 2, ¬ Image.IsTable (imageOf squareFile) Image.strtab i := by decide +kernel
    have sections : Image.shnum (imageOf squareFile) = 2 := by decide +kernel
    exact none str (sections ▸ found.strings.1) found.strings
  have bootable : Bootable (imageOf squareFile) 2097152 := {
    ready := Image.ready_iff.mpr (by decide +kernel)
    checked := {
      listed := by decide +kernel
      sections := by decide +kernel
      symbols := fun _ _ found => (nameless found).elim }
    room := by decide +kernel
    ordered := by decide +kernel
    sizes := by decide +kernel
    lines := by decide +kernel
    table := by decide +kernel
    few := fun _ _ found => (nameless found).elim }
  exact {
    accepted := ⟨by decide +kernel, .inr (by decide +kernel), by decide +kernel⟩
    bootable := bootable
    aligned := by decide
    small := by decide
    big := by decide +kernel
    cached := by decide
    room := by decide +kernel
    last := by decide
    starts := rfl }

theorem segments_loaded_square : ∃ loader regs, boot squareFile [97] [] { startAddr := 131072 }
      (freshLoader 2097152 16 0 0 524288) = .ok (loader, regs) ∧
    byteAt loader.mem 131072 = 21 ∧ byteAt loader.mem 131088 = 0 ∧ regs.rv64PC = 131072 := by
  have one : (imageOf squareFile).phnum = 1 := by decide +kernel
  have first : ∀ i < (imageOf squareFile).phnum, i = 0 := by
    intro i inside
    omega
  obtain ⟨loader, regs, booted, segments, -, -, -, pc⟩ := segments_loaded squareFile_fitting 0 0 524288
    (fun i inside j earlier => by
      have zero := first i inside
      omega)
    (by decide +kernel)
  have loads : Loads (imageOf squareFile) 0 := by decide +kernel
  refine ⟨loader, regs, booted, ?_, ?_, pc⟩
  · exact (segments 0 (by omega) loads 0 (by decide +kernel)).2.trans (by decide +kernel)
  · exact (segments 0 (by omega) loads 16 (by decide +kernel)).2.trans (by decide +kernel)

end Boot
end RevCPU.Boot
