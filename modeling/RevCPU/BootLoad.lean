import RevCPU.BootStages
/-!
LoadElf from its first call to its last: each stage takes the loader on, and the last leaves the memory that
the program headers describe and the symbols of the file.
-/
namespace RevCPU.Boot
open RegFile Mem Heap Elf Loader MemRefine Prefetch Regions Trace Run

section Leads
variable {image : Image} {memSize : Nat} (progress : Progress) (bootable : Bootable image memSize)

include bootable in
theorem leads_addSegments :
    Leads (act image) (Stage image memSize { progress with count := 0 }) image.addSegments
      fun _ => Stage image memSize { progress with count := image.phnum } := by
  have bodies : ∀ i < image.phnum, ∀ value : Unit,
      Leads (act image) (Stage image memSize { progress with count := i }) (image.addSegment i)
        fun _ => Stage image memSize { progress with count := i + 1 } := by
    intro i inside _
    apply leads_readPh_bind
    apply leads_readPh_bind
    apply leads_refuse_bind
    intro _
    apply leads_readPh_bind
    apply leads_ite
    · intro some
      apply leads_readPh_bind
      exact leads_emit fun loader stage => segment_stage bootable inside some stage
    · intro none
      exact leads_pure fun loader stage => empty_stage (not_not.mp none) stage
  exact leads_loop bodies

include bootable in
theorem leads_describe :
    Leads (act image) (Stage image memSize { progress with count := 0 }) image.describe fun _ =>
      Stage image memSize
        { progress with count := image.phnum, entry := image.get 0 image.format.eEntry } := by
  apply leads_emit_bind
  · intro loader stage
    exact ⟨loader, rfl, stage⟩
  apply leads_readSh_bind
  apply leads_emit_bind
  · intro loader stage
    exact ⟨_, rfl, entry_stage stage (image.get 0 image.format.eEntry)⟩
  apply leads_bind (leads_addSegments { progress with entry := image.get 0 image.format.eEntry } bootable)
  intro _ _
  apply leads_bind (leads_reads reads_sectionEnds)
  intro ends _
  apply leads_refuse_bind
  intro _
  apply leads_refuse_bind
  intro _
  exact leads_pure fun loader stage => stage

theorem flatStore_nothing (flat : Nat → Byte) (addr : Nat) (data : Buffer) :
    flatStore flat addr 0 data = flat := by
  funext place
  exact if_neg (by omega)

/-- A write of a part of the file, with no byte perhaps, to a range that is valid. -/
theorem leads_writeFile {addr source len : Nat} (room : addr + len ≤ memSize)
    (valid : ∀ loader, Stage image memSize progress loader → ∀ place, addr ≤ place → place < addr + len →
      loader.mem.isValidVirtAddr place = true)
    (behind : ∀ loader, Stage image memSize progress loader → len = 64 → addr % 64 = 0 →
      loader.mem.isValidVirtAddr (addr + len) = true) :
    Leads (act image) (Stage image memSize progress) (Image.writeFile addr source len) fun _ =>
      Stage image memSize { progress with
        flat := flatStore progress.flat addr len fun index => image.byteAt (source + index) } := by
  have same : (fun index => image.byteAt (source % 2 ^ 64 + index)) =
      fun index => image.byteAt (source + index) := by
    funext index
    rw [Image.byteAt, Image.byteAt, Nat.mod_add_mod]
  rw [Image.writeFile]
  apply leads_ite
  · intro _
    apply leads_emit
    intro loader stage
    rw [act, same]
    exact write_stage stage _ room (valid loader stage) (behind loader stage)
  · intro none
    obtain rfl : len = 0 := not_not.mp none
    rw [flatStore_nothing]
    exact leads_pure fun loader stage => stage

include bootable in
theorem leads_writeHeaders (wide : 32 ≤ image.format.width) (small : memSize < 2 ^ 32)
    (room : stackSize + image.phdrTable ≤ progress.stack) (high : progress.stack < memSize) :
    Leads (act image) (Stage image memSize progress) (image.writeHeaders progress.stack) fun _ =>
      Stage image memSize { progress with
        stack := progress.stack - image.phdrTable
        flat := flatStore progress.flat (progress.stack - image.phdrTable) image.phdrTable
          fun index => image.byteAt (image.phoff + index) } := by
  have table := bootable.table
  have width : 2 ^ 32 ≤ 2 ^ image.format.width := Nat.pow_le_pow_right (by decide) wide
  have place : (progress.stack + 2 ^ 64 - image.phdrTable) % 2 ^ 64 % 2 ^ image.format.width =
      progress.stack - image.phdrTable := by
    have wrapped : (progress.stack + 2 ^ 64 - image.phdrTable) % 2 ^ 64 =
        progress.stack - image.phdrTable := by
      omega
    rw [wrapped, Nat.mod_eq_of_lt (by omega)]
  rw [Image.writeHeaders, place]
  have written : Leads (act image) (Stage image memSize progress)
      (Image.writeFile (progress.stack - image.phdrTable) image.phoff image.phdrTable) _ :=
    leads_writeFile progress (by omega)
      (fun loader stage place low high => stage.valid (by omega) (by omega))
      (fun loader stage _ _ => stage.valid (by omega) (by omega))
  apply leads_bind written
  intro _ _
  apply leads_emit
  intro loader stage
  exact ⟨_, rfl, stackTop_stage stage (by omega) (by omega)⟩

theorem contents_loaded (before : Nat → Byte) {i : Nat} (loads : Loads image i)
    (sizes : filesz image i ≤ memsz image i) :
    contents image before (i + 1) = flatStore (flatStore (contents image before i) (paddr image i)
      (filesz image i) fun index => image.byteAt (offset image i + index))
      (paddr image i + filesz image i) (memsz image i - filesz image i) fun _ => 0 := by
  funext cell
  rw [contents, flatStore, flatStore]
  by_cases inside : paddr image i ≤ cell ∧ cell < paddr image i + memsz image i
  · rw [if_pos ⟨loads, inside⟩]
    by_cases file : cell < paddr image i + filesz image i
    · rw [if_pos file, if_neg (by omega), if_pos (by omega)]
    · rw [if_neg file, if_pos (by omega)]
  · rw [if_neg fun both => inside both.2, if_neg (by omega), if_neg (by omega)]

theorem contents_skipped (before : Nat → Byte) {i : Nat} (skipped : ¬ Loads image i) :
    contents image before (i + 1) = contents image before i := by
  funext cell
  rw [contents, if_neg fun both => skipped both.1]

variable {progress} in
include bootable in
theorem range_valid {loader : RevLoader} (stage : Stage image memSize progress loader)
    (counted : progress.count = image.phnum) {i : Nat} (inside : i < image.phnum) (loads : Loads image i)
    {place : Nat} (low : paddr image i ≤ place)
    (high : place < paddr image i + memsz image i ∨
      place = paddr image i + memsz image i ∧ memsz image i % roundUpSize ≠ 0) :
    loader.mem.isValidVirtAddr place = true := by
  have small := stage.small
  have fits := bootable.fits small inside loads.2
  obtain ⟨_, _, within⟩ := rounded_top fits
  have remainder : memsz image i % roundUpSize < roundUpSize := Nat.mod_lt _ (by decide)
  have top : place < (request image i).top := by
    rcases high with before | ⟨same, partly⟩
    · exact Nat.lt_of_lt_of_le before within
    · have rounded : (request image i).top =
          paddr image i + (memsz image i + roundUpSize - memsz image i % roundUpSize) := by
        rw [Request.top]
        exact congrArg (paddr image i + ·) (if_neg partly)
      omega
  exact valid_covered (stage.held i (counted ▸ inside) loads.2 place low top)

include bootable in
theorem range_room (small : memSize < 2 ^ 32) {i : Nat} (inside : i < image.phnum)
    (some : memsz image i ≠ 0) : paddr image i + memsz image i ≤ memSize := by
  obtain ⟨_, _, within⟩ := rounded_top (bootable.fits small inside some)
  exact Nat.le_trans within (bootable.room i inside some)

include bootable in
theorem leads_segmentFile (small : memSize < 2 ^ 32) (before : Nat → Byte) {i : Nat}
    (inside : i < image.phnum) (loads : Loads image i) :
    Leads (act image)
      (Stage image memSize { progress with count := image.phnum, flat := contents image before i })
      (Image.writeFile (paddr image i) (offset image i) (filesz image i)) fun _ =>
      Stage image memSize { progress with
        count := image.phnum
        flat := flatStore (contents image before i) (paddr image i) (filesz image i)
          fun index => image.byteAt (offset image i + index) } := by
  have sizes := bootable.sizes i inside loads
  have room := range_room bootable small inside loads.2
  apply leads_writeFile { progress with count := image.phnum, flat := contents image before i }
  · exact Nat.le_trans (Nat.add_le_add_left sizes _) room
  · intro loader stage place low high
    have below : place < paddr image i + memsz image i :=
      Nat.lt_of_lt_of_le high (Nat.add_le_add_left sizes _)
    exact range_valid bootable stage rfl inside loads low (.inl below)
  · intro loader stage whole _
    apply range_valid bootable stage rfl inside loads (Nat.le_add_right _ _)
    rcases Nat.lt_or_eq_of_le sizes with shorter | same
    · exact .inl (Nat.add_lt_add_left shorter _)
    · refine .inr ⟨congrArg (paddr image i + ·) same, ?_⟩
      rw [← same, show filesz image i = 64 from whole]
      decide

include bootable in
theorem leads_fill (wide : 32 ≤ image.format.width) (small : memSize < 2 ^ 32) (before : Nat → Byte) {i : Nat}
    (inside : i < image.phnum) (loads : Loads image i) :
    Leads (act image)
      (Stage image memSize { progress with
        count := image.phnum
        flat := flatStore (contents image before i) (paddr image i) (filesz image i)
          fun index => image.byteAt (offset image i + index) })
      (emit (.fill (image.sum (paddr image i) (filesz image i)) (memsz image i) (filesz image i))) fun _ =>
      Stage image memSize { progress with count := image.phnum, flat := contents image before (i + 1) } := by
  have sizes := bootable.sizes i inside loads
  have room := range_room bootable small inside loads.2
  have width : 2 ^ 32 ≤ 2 ^ image.format.width := Nat.pow_le_pow_right (by decide) wide
  have sum : image.sum (paddr image i) (filesz image i) = paddr image i + filesz image i :=
    Nat.mod_eq_of_lt (by omega)
  apply leads_emit
  intro loader stage
  have zeros : (memsz image i + 2 ^ image.format.width - filesz image i) % 2 ^ image.format.width =
      memsz image i - filesz image i := by
    rw [Nat.add_comm, Nat.add_sub_assoc sizes, Nat.add_mod_left]
    exact Nat.mod_eq_of_lt (by omega)
  rw [contents_loaded before loads sizes, act, if_neg fun short => Nat.not_lt.mpr sizes short.2, sum, zeros]
  apply write_stage stage
  · omega
  · intro place low high
    exact range_valid bootable stage rfl inside loads (by omega) (.inl (by omega))
  · intro whole aligned
    apply range_valid bootable stage rfl inside loads (by omega)
    refine .inr ⟨by omega, fun partly => ?_⟩
    have line := bootable.lines i inside loads partly
    rw [roundUpSize] at partly
    exact line ⟨by omega, by omega⟩

include bootable in
theorem leads_loadSegment (wide : 32 ≤ image.format.width) (small : memSize < 2 ^ 32) (before : Nat → Byte)
    {i : Nat} (inside : i < image.phnum) :
    Leads (act image)
      (Stage image memSize { progress with count := image.phnum, flat := contents image before i })
      (image.loadSegment i) fun _ =>
      Stage image memSize { progress with count := image.phnum, flat := contents image before (i + 1) } := by
  rw [Image.loadSegment]
  apply leads_readPh_bind
  apply leads_ite
  · intro type
    apply leads_readPh_bind
    apply leads_ite
    · intro some
      have loads : Loads image i := ⟨type, some⟩
      have filled := leads_fill progress bootable wide small before inside loads
      have made : Leads (act image) (Stage image memSize
          { progress with count := image.phnum, flat := contents image before (i + 1) })
          (refuse (image.format.width = 64 ∧ memsz image i < filesz image i)) fun _ => Stage image memSize
          { progress with count := image.phnum, flat := contents image before (i + 1) } :=
        leads_refuse fun _ _ stage => stage
      have ended := leads_bind filled fun _ _ => made
      apply leads_readPh_bind
      apply leads_readPh_bind
      dsimp only
      apply leads_ite
      · intro _
        apply leads_readPh_bind
        apply leads_refuse_bind
        intro _
        exact leads_bind (leads_segmentFile progress bootable small before inside loads) fun _ _ => ended
      · intro none
        have empty : filesz image i = 0 := not_not.mp none
        have nothing : flatStore (contents image before i) (paddr image i) (filesz image i)
            (fun index => image.byteAt (offset image i + index)) = contents image before i := by
          rw [empty, flatStore_nothing]
        rw [nothing] at ended
        exact ended
    · intro none
      apply leads_pure
      intro loader stage
      rw [contents_skipped before fun loads => none loads.2]
      exact stage
  · intro other
    apply leads_pure
    intro loader stage
    rw [contents_skipped before fun loads => other loads.1]
    exact stage

include bootable in
theorem leads_loadSegments (wide : 32 ≤ image.format.width) (small : memSize < 2 ^ 32) (before : Nat → Byte) :
    Leads (act image) (Stage image memSize { progress with count := image.phnum, flat := before })
      image.loadSegments fun _ => Stage image memSize
        { progress with count := image.phnum, flat := contents image before image.phnum } := by
  have bodies : ∀ i < image.phnum, ∀ value : Unit,
      Leads (act image) (Stage image memSize
          { progress with count := image.phnum, flat := contents image before i }) (image.loadSegment i)
        fun _ => Stage image memSize
          { progress with count := image.phnum, flat := contents image before (i + 1) } :=
    fun i inside _ => leads_loadSegment progress bootable wide small before inside
  exact leads_loop bodies

end Leads

section Symbols
variable {image : Image} {memSize : Nat} (progress : Progress)

theorem leads_addSymbol (str sym i : Nat) :
    Leads (act image) (Stage image memSize { progress with names := valueOf image str sym i })
      (image.addSymbol ⟨str, sym⟩ (image.sh str image.format.shOffset) (image.sh sym image.format.shOffset) i)
      fun _ => Stage image memSize { progress with names := valueOf image str sym (i + 1) } := by
  rw [Image.addSymbol]
  apply leads_readSh_bind
  apply leads_read_bind
  apply leads_refuse_bind
  intro _
  apply leads_bind (leads_reads (reads_readName _ _))
  intro key named
  rw [Image.result_readName] at named
  apply leads_refuse_bind
  intro _
  apply leads_read_bind
  apply leads_emit
  intro loader stage
  have next : valueOf image str sym (i + 1) = Function.update (valueOf image str sym i) key
      (some (image.get (image.symbol sym i) image.format.stValue)) := by
    funext name
    obtain rfl := Option.some.inj named
    rw [Function.update_apply]
    rfl
  rw [next]
  exact ⟨_, rfl, symbol_stage stage key _⟩

theorem leads_addSymbols (few : ∀ str sym, image.Found str sym →
      image.sh sym image.format.shSize / image.format.symSize < 2 ^ 32) :
    Leads (act image) (Stage image memSize { progress with names := fun _ => none })
      (image.addSymbols image.tables) fun _ =>
      Stage image memSize { progress with names := symbols image } := by
  rw [Image.addSymbols, symbols]
  apply leads_ite
  · intro found
    apply leads_readSh_bind
    apply leads_readSh_bind
    apply leads_readSh_bind
    rw [if_pos found]
    have bodies : ∀ i < image.symbolCount image.tables.symtab, ∀ value : Unit,
        Leads (act image) (Stage image memSize
            { progress with names := valueOf image image.tables.strtab image.tables.symtab i })
          (image.addSymbol image.tables (image.sh image.tables.strtab image.format.shOffset)
            (image.sh image.tables.symtab image.format.shOffset) i)
          fun _ => Stage image memSize
            { progress with names := valueOf image image.tables.strtab image.tables.symtab (i + 1) } :=
      fun i _ _ => leads_addSymbol progress image.tables.strtab image.tables.symtab i
    have ends : image.sh image.tables.symtab image.format.shSize / image.format.symSize < 2 ^ 32 :=
      Image.forall_found.mp few found
    apply leads_bind (leads_loop bodies)
    intro _ _
    rw [Image.again, if_neg (Nat.not_le.mpr ends)]
    exact leads_pure fun loader stage => stage
  · intro missing
    rw [if_neg missing]
    exact leads_pure fun loader stage => stage

end Symbols
end RevCPU.Boot
