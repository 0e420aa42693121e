import RevCPU.ElfFile
/-!
What each stage of the loader reads, where it stops and what it returns, as conditions on the fields of the
file. A loop goes on while the checks of the earlier headers pass.
-/
namespace RevCPU.Elf
open Mem Trace Run

/-- The bytes read are in the file, and no more of a segment is in the file than in the memory. -/
def Event.Safe (size : Nat) : Event → Prop
  | .read place len => place + len ≤ size
  | .write _ source len => source + len ≤ size
  | .fill _ memsz filesz => filesz ≤ memsz
  | _ => True

namespace Image
variable (image : Image)

section Places

def Has (base : Nat) (field : Field) : Prop := (base + field.offset) % 2 ^ 64 + field.len ≤ image.size

instance {base : Nat} {field : Field} : Decidable (image.Has base field) :=
  inferInstanceAs (Decidable (_ ≤ _))

/-- The bytes that strcmp gets to are in the file. -/
def Compared (place : Nat) : List Byte → Prop
  | [] => True
  | char :: rest => place % 2 ^ 64 + 1 ≤ image.size ∧ (image.byteAt place = char → Compared (place + 1) rest)

instance decidableCompared : (place : Nat) → (name : List Byte) → Decidable (image.Compared place name)
  | _, [] => inferInstanceAs (Decidable True)
  | place, _ :: rest =>
    have := decidableCompared (place + 1) rest
    inferInstanceAs (Decidable (_ ∧ (_ → _)))

def same (place : Nat) : List Byte → Bool
  | [] => true
  | char :: rest => decide (image.byteAt place = char) && same (place + 1) rest

def named (i : Nat) (name : List Byte) : Bool :=
  image.same (image.shstrtab + image.sh i image.format.shName) name

/-- The name of a section is in the file as far as it is compared. -/
def NameIn (i : Nat) (name : List Byte) : Prop :=
  image.Has (image.shdr i) image.format.shName ∧
    image.Compared (image.shstrtab + image.sh i image.format.shName) name

instance {i : Nat} {name : List Byte} : Decidable (image.NameIn i name) := inferInstanceAs (Decidable (_ ∧ _))

end Places

section Lemmas
variable {image} {holds : Event → Prop} {β : Type}

@[simp] theorem all_read_bind (base : Nat) (field : Field) (next : Nat → Run Event β) :
    All holds (image.read base field >>= next) ↔
      holds (.read ((base + field.offset) % 2 ^ 64) field.len) ∧ All holds (next (image.get base field)) := by
  rw [all_bind, read, all_emit_bind]
  simp

@[simp] theorem result_read_bind (base : Nat) (field : Field) (next : Nat → Run Event β) :
    (image.read base field >>= next).result = (next (image.get base field)).result := by
  rw [result_bind, read, result_emit_bind]
  rfl

@[simp] theorem all_readPh_bind (i : Nat) (field : Field) (next : Nat → Run Event β) :
    All holds (image.readPh i field >>= next) ↔
      holds (.read ((image.phdr i + field.offset) % 2 ^ 64) field.len) ∧
        All holds (next (image.ph i field)) := all_read_bind _ _ _

@[simp] theorem all_readSh_bind (i : Nat) (field : Field) (next : Nat → Run Event β) :
    All holds (image.readSh i field >>= next) ↔
      holds (.read ((image.shdr i + field.offset) % 2 ^ 64) field.len) ∧
        All holds (next (image.sh i field)) := all_read_bind _ _ _

@[simp] theorem result_readPh_bind (i : Nat) (field : Field) (next : Nat → Run Event β) :
    (image.readPh i field >>= next).result = (next (image.ph i field)).result := result_read_bind _ _ _

@[simp] theorem result_readSh_bind (i : Nat) (field : Field) (next : Nat → Run Event β) :
    (image.readSh i field >>= next).result = (next (image.sh i field)).result := result_read_bind _ _ _

theorem result_strcmp (place : Nat) (name : List Byte) :
    (image.strcmp place name).result = some (image.same place name) := by
  induction name generalizing place with
  | nil => rfl
  | cons char rest ih =>
    rw [strcmp, result_emit_bind, same]
    by_cases equal : image.byteAt place = char
    · rw [if_pos equal, ih, decide_eq_true equal, Bool.true_and]
    · rw [if_neg equal, decide_eq_false equal, Bool.false_and]
      rfl

theorem safe_strcmp (place : Nat) (name : List Byte) :
    All (Event.Safe image.size) (image.strcmp place name) ↔ image.Compared place name := by
  induction name generalizing place with
  | nil => exact iff_of_true (all_pure _) trivial
  | cons char rest ih =>
    rw [strcmp, all_emit_bind, Compared]
    apply and_congr_right'
    by_cases equal : image.byteAt place = char
    · rw [if_pos equal, ih]
      exact ⟨fun inside _ => inside, fun inside => inside equal⟩
    · rw [if_neg equal]
      exact iff_of_true (all_pure _) fun other => absurd other equal

theorem result_sectionIs (i : Nat) (name : List Byte) :
    (image.sectionIs i name).result = some (image.named i name) := by
  rw [sectionIs, result_readSh_bind, result_strcmp]
  rfl

theorem safe_sectionIs (i : Nat) (name : List Byte) :
    All (Event.Safe image.size) (image.sectionIs i name) ↔ image.NameIn i name := by
  rw [sectionIs, all_readSh_bind, safe_strcmp]
  rfl

end Lemmas

section Describe

def Fits (i : Nat) : Prop :=
  image.sum (image.ph i image.format.pOffset) (image.ph i image.format.pFilesz) ≤ image.size

instance : DecidablePred image.Fits := fun _ => inferInstanceAs (Decidable (_ ≤ _))

/-- What is read of a program header to add its segment. -/
def HeaderIn (i : Nat) : Prop :=
  image.Has (image.phdr i) image.format.pOffset ∧ image.Has (image.phdr i) image.format.pFilesz ∧
    (image.Fits i → image.Has (image.phdr i) image.format.pMemsz ∧
      (image.ph i image.format.pMemsz ≠ 0 → image.Has (image.phdr i) image.format.pPaddr))

instance : DecidablePred image.HeaderIn := fun _ => inferInstanceAs (Decidable (_ ∧ _ ∧ (_ → _ ∧ (_ → _))))

def EndIn (i : Nat) (name : List Byte) : Prop :=
  image.NameIn i name ∧ (image.named i name →
    image.Has (image.shdr i) image.format.shAddr ∧ image.Has (image.shdr i) image.format.shSize)

instance {i : Nat} {name : List Byte} : Decidable (image.EndIn i name) :=
  inferInstanceAs (Decidable (_ ∧ (_ → _)))

def sectionEndOf (i : Nat) : Nat :=
  image.sum (image.sh i image.format.shAddr) (image.sh i image.format.shSize)

/-- The last section with a name ends behind 0. -/
def Ending (name : List Byte) : Prop :=
  ∃ i < image.shnum, Last (fun i => image.named i name) image.shnum i ∧ image.sectionEndOf i ≠ 0

structure Ready : Prop where
  headers : ∀ i < image.phnum, image.Fits i
  sections : image.Ending bss ∨ image.Ending data ∨ image.Ending text
  table : (image.phoff + image.phdrTable) % 2 ^ 64 ≤ image.size

variable {image}

theorem result_addSegment (i : Nat) :
    (image.addSegment i).result = if image.Fits i then some () else none := by
  rw [addSegment, result_readPh_bind, result_readPh_bind, result_refuse_bind, result_readPh_bind]
  by_cases fits : image.Fits i
  · rw [if_neg (Nat.not_lt.mpr fits), if_pos fits]
    split
    · rw [result_readPh_bind]
      rfl
    · rfl
  · rw [if_pos (Nat.not_le.mp fits), if_neg fits]

theorem safe_addSegment (i : Nat) : All (Event.Safe image.size) (image.addSegment i) ↔ image.HeaderIn i := by
  rw [addSegment, all_readPh_bind, all_readPh_bind, all_refuse_bind, all_readPh_bind, all_ite,
    all_readPh_bind, Nat.not_lt, HeaderIn]
  simp [Fits, Has, Event.Safe]

theorem result_addSegments :
    image.addSegments.result = if ∀ i < image.phnum, image.Fits i then some () else none :=
  result_loop _ (fun _ _ => ()) fun i _ _ => result_addSegment i

theorem safe_addSegments : All (Event.Safe image.size) image.addSegments ↔
    ∀ i < image.phnum, (∀ j < i, image.Fits j) → image.HeaderIn i :=
  all_loop_passes _ (fun _ _ => ()) (fun i _ _ => result_addSegment i) fun i _ _ => safe_addSegment i

theorem result_endOf (i : Nat) (name : List Byte) (before : Nat) : (image.endOf i name before).result =
    some (if image.named i name then image.sectionEndOf i else before) := by
  rw [endOf, result_bind_total (result_sectionIs i name)]
  split
  · rw [result_readSh_bind, result_readSh_bind]
    rfl
  · rfl

theorem safe_endOf (i : Nat) (name : List Byte) (before : Nat) :
    All (Event.Safe image.size) (image.endOf i name before) ↔ image.EndIn i name := by
  rw [endOf, all_bind_total (result_sectionIs i name), safe_sectionIs, all_ite, all_readSh_bind,
    all_readSh_bind]
  simp only [all_pure, implies_true, and_true]
  rfl

/-- What a name gives after the sections before. -/
def ending (image : Image) (name : List Byte) (count : Nat) : Nat :=
  folded (fun i before => if image.named i name then image.sectionEndOf i else before) 0 count

def nextEnds (image : Image) (i : Nat) (ends : Ends) : Ends :=
  ⟨if image.named i bss then image.sectionEndOf i else ends.bss,
    if image.named i text then image.sectionEndOf i else ends.text,
    if image.named i data then image.sectionEndOf i else ends.data⟩

def EndsIn (image : Image) (i : Nat) : Prop := image.EndIn i bss ∧ image.EndIn i text ∧ image.EndIn i data

instance : DecidablePred image.EndsIn := fun _ => inferInstanceAs (Decidable (_ ∧ _ ∧ _))

def ends (image : Image) : Ends :=
  ⟨image.ending bss image.shnum, image.ending text image.shnum, image.ending data image.shnum⟩

theorem result_sectionEnd (i : Nat) (ends : Ends) :
    (image.sectionEnd i ends).result = some (image.nextEnds i ends) := by
  rw [sectionEnd, result_bind_total (result_endOf i bss _), result_bind_total (result_endOf i text _),
    result_bind_total (result_endOf i data _)]
  rfl

theorem safe_sectionEnd (i : Nat) (ends : Ends) :
    All (Event.Safe image.size) (image.sectionEnd i ends) ↔ image.EndsIn i := by
  rw [sectionEnd, all_bind_total (result_endOf i bss _), all_bind_total (result_endOf i text _),
    all_bind_total (result_endOf i data _), safe_endOf, safe_endOf, safe_endOf]
  simp only [all_pure, and_true]
  rfl

theorem folded_nextEnds (count : Nat) : folded image.nextEnds ⟨0, 0, 0⟩ count =
    ⟨image.ending bss count, image.ending text count, image.ending data count⟩ := by
  induction count with
  | zero => rfl
  | succ count ih => rw [folded, ih]; rfl

theorem result_sectionEnds : image.sectionEnds.result = some image.ends := by
  rw [sectionEnds, result_loop_total fun i _ => result_sectionEnd i, folded_nextEnds]
  rfl

theorem safe_sectionEnds :
    All (Event.Safe image.size) image.sectionEnds ↔ ∀ i < image.shnum, image.EndsIn i :=
  all_loop_total (fun i _ => result_sectionEnd i) (fun i _ => safe_sectionEnd i)

theorem ending_ne_zero (name : List Byte) : image.ending name image.shnum ≠ 0 ↔ image.Ending name := by
  constructor
  · intro positive
    rcases (folded_last _ _ _ _ positive).mp rfl with ⟨i, inside, last, same⟩
    exact ⟨i, inside, last, same ▸ positive⟩
  · rintro ⟨i, inside, last, positive⟩
    have found : image.ending name image.shnum = image.sectionEndOf i :=
      (folded_last _ _ _ _ positive).mpr ⟨i, inside, last, rfl⟩
    rwa [found]

theorem staticDataEnd_ne_zero (ends : Ends) :
    staticDataEnd ends ≠ 0 ↔ ends.bss ≠ 0 ∨ ends.data ≠ 0 ∨ ends.text ≠ 0 := by
  rw [staticDataEnd]
  split
  · omega
  · split
    · omega
    · omega

theorem ready_iff : image.Ready ↔ (∀ i < image.phnum, image.Fits i) ∧ staticDataEnd image.ends ≠ 0 ∧
    (image.phoff + image.phdrTable) % 2 ^ 64 ≤ image.size := by
  rw [staticDataEnd_ne_zero, ends, ending_ne_zero, ending_ne_zero, ending_ne_zero]
  constructor
  · rintro ⟨headers, sections, table⟩
    exact ⟨headers, sections, table⟩
  · rintro ⟨headers, sections, table⟩
    exact ⟨headers, sections, table⟩

instance : Decidable image.Ready := decidable_of_iff _ ready_iff.symm

theorem result_describe :
    image.describe.result = if image.Ready then some (staticDataEnd image.ends) else none := by
  rw [describe, result_emit_bind, result_readSh_bind, result_emit_bind,
    result_bind_of_result result_addSegments, result_bind_total result_sectionEnds, result_refuse_bind,
    result_refuse_bind]
  by_cases headers : ∀ i < image.phnum, image.Fits i
  · rw [if_pos headers]
    by_cases sections : staticDataEnd image.ends = 0
    · rw [if_pos sections, if_neg fun ready => (ready_iff.mp ready).2.1 sections]
    · rw [if_neg sections]
      by_cases table : (image.phoff + image.phdrTable) % 2 ^ 64 ≤ image.size
      · rw [if_neg (Nat.not_lt.mpr table), if_pos (ready_iff.mpr ⟨headers, sections, table⟩)]
        rfl
      · rw [if_pos (Nat.not_le.mp table), if_neg fun ready => table ready.table]
  · rw [if_neg headers, if_neg fun ready => headers ready.headers]

/-- What is read before the first write. -/
structure Described (image : Image) : Prop where
  strings : image.Has (image.shdr image.shstrndx) image.format.shOffset
  headers : ∀ i < image.phnum, (∀ j < i, image.Fits j) → image.HeaderIn i
  sections : (∀ i < image.phnum, image.Fits i) → ∀ i < image.shnum, image.EndsIn i

theorem safe_describe (header : image.format.ehdrSize ≤ image.size) :
    All (Event.Safe image.size) image.describe ↔ image.Described := by
  rw [describe, all_emit_bind, all_readSh_bind, all_emit_bind, all_bind_of_result result_addSegments,
    safe_addSegments, all_bind_total result_sectionEnds, safe_sectionEnds]
  simp only [all_refuse_bind, all_pure, implies_true, and_true]
  constructor
  · rintro ⟨-, strings, -, headers, sections⟩
    exact ⟨strings, headers, sections⟩
  · rintro ⟨strings, headers, sections⟩
    exact ⟨(Nat.zero_add _).le.trans header, strings, trivial, headers, sections⟩

end Describe

section Load
variable {image}

theorem get_lt (base : Nat) {field : Field} (short : field.len ≤ 8) : image.get base field < 2 ^ 64 := by
  apply (LittleEndian.value_lt _ _).trans_le
  calc 256 ^ field.len ≤ 256 ^ 8 := Nat.pow_le_pow_right (by decide) short
    _ = 2 ^ 64 := by decide

theorem safe_writeFile (addr source len : Nat) : All (Event.Safe image.size) (writeFile addr source len) ↔
    (len ≠ 0 → source % 2 ^ 64 + len ≤ image.size) := by
  rw [writeFile, all_ite, all_emit]
  exact and_iff_left fun _ => all_pure _

theorem result_writeFile (addr source len : Nat) : (writeFile addr source len).result = some () := by
  rw [writeFile]
  split
  · rfl
  · rfl

/-- The program header table lies in the file without wrapping. -/
def TableIn (image : Image) : Prop := image.phnum ≠ 0 → image.phoff + image.phdrTable ≤ image.size

instance : Decidable image.TableIn := inferInstanceAs (Decidable (_ → _))

theorem safe_writeHeaders (stackTop : Nat) :
    All (Event.Safe image.size) (image.writeHeaders stackTop) ↔ image.TableIn := by
  rw [writeHeaders, all_bind_total (result_writeFile _ _ _), safe_writeFile, all_emit, phoff,
    Nat.mod_eq_of_lt (get_lt 0 image.format.offsets.1)]
  apply (and_iff_left trivial).trans
  apply imp_congr_left
  rw [phdrTable, Nat.mul_ne_zero_iff]
  exact and_iff_left image.format.phdrSome.ne'

theorem result_writeHeaders (stackTop : Nat) : (image.writeHeaders stackTop).result = some () := by
  rw [writeHeaders, result_bind_total (result_writeFile _ _ _)]
  rfl

theorem has_phdr {i : Nat} (inside : i < image.phnum) (table : image.TableIn) {field : Field}
    (member : field ∈ [image.format.pType, image.format.pOffset, image.format.pPaddr, image.format.pFilesz,
      image.format.pMemsz]) : image.Has (image.phdr i) field := by
  have fits := image.format.phdrFields field member
  have within : image.phoff + image.phdrTable ≤ image.size := table (Nat.ne_zero_of_lt inside)
  have before : i * image.format.phdrSize + image.format.phdrSize ≤ image.phdrTable := by
    rw [← Nat.succ_mul]
    exact Nat.mul_le_mul_right _ inside
  have bounded := image.bounded
  rw [Has, phdr, Nat.mod_eq_of_lt (by omega)]
  omega

/-- What is copied of a segment lies in the file, and the rest of the segment is not negative. -/
def SegmentIn (image : Image) (i : Nat) : Prop :=
  image.ph i image.format.pType = 1 → image.ph i image.format.pMemsz ≠ 0 →
    (image.ph i image.format.pFilesz ≠ 0 →
      image.ph i image.format.pOffset + image.ph i image.format.pFilesz ≤ image.size) ∧
    image.ph i image.format.pFilesz ≤ image.ph i image.format.pMemsz

instance : DecidablePred image.SegmentIn := fun _ => inferInstanceAs (Decidable (_ → _ → (_ → _) ∧ _))

def Fills (image : Image) (i : Nat) : Prop :=
  image.ph i image.format.pType = 1 → image.ph i image.format.pMemsz ≠ 0 →
    ¬ (image.format.width = 64 ∧ image.ph i image.format.pMemsz < image.ph i image.format.pFilesz)

instance : DecidablePred image.Fills := fun _ => inferInstanceAs (Decidable (_ → _ → ¬ _))

theorem SegmentIn.fills {i : Nat} (segment : image.SegmentIn i) : image.Fills i :=
  fun type memsz short => absurd (segment type memsz).2 (Nat.not_le.mpr short.2)

theorem safe_loadSegment {i : Nat} (inside : i < image.phnum) (table : image.TableIn) (fits : image.Fits i) :
    All (Event.Safe image.size) (image.loadSegment i) ↔ image.SegmentIn i := by
  have has {field : Field} (member : field ∈ [image.format.pType, image.format.pOffset, image.format.pPaddr,
      image.format.pFilesz, image.format.pMemsz]) :
      Event.Safe image.size (.read ((image.phdr i + field.offset) % 2 ^ 64) field.len) :=
    has_phdr inside table member
  have offset : image.ph i image.format.pOffset % 2 ^ 64 = image.ph i image.format.pOffset :=
    Nat.mod_eq_of_lt (get_lt _ image.format.offsets.2)
  rw [loadSegment, all_readPh_bind, all_ite, all_readPh_bind, all_ite, all_readPh_bind, all_readPh_bind,
    all_ite, all_readPh_bind, all_refuse_bind, all_bind_total (result_writeFile _ _ _), safe_writeFile,
    all_emit_bind, offset]
  constructor
  · rintro ⟨-, loaded, -⟩ type memsz
    rcases (loaded type).2.1 memsz with ⟨-, -, copied, empty⟩
    by_cases filesz : image.ph i image.format.pFilesz = 0
    · exact ⟨fun other => absurd filesz other, (empty (not_not.mpr filesz)).1⟩
    · have ⟨source, filled, _⟩ := (copied filesz).2 (Nat.not_lt.mpr fits)
      exact ⟨source, filled⟩
  · intro segment
    refine ⟨has (by simp), fun type => ⟨has (by simp), fun memsz => ?_, ?_⟩, ?_⟩
    · refine ⟨has (by simp), has (by simp), ?_, ?_⟩
      · intro filesz
        have ⟨source, filled⟩ := segment type memsz
        exact ⟨has (by simp), fun _ => ⟨source, filled, all_refuse _⟩⟩
      · exact fun _ => ⟨(segment type memsz).2, all_refuse _⟩
    · exact fun _ => all_pure _
    · exact fun _ => all_pure _

theorem result_loadSegment {i : Nat} (fits : image.Fits i) :
    (image.loadSegment i).result = if image.Fills i then some () else none := by
  have zeros : (refuse (image.format.width = 64 ∧ image.ph i image.format.pMemsz <
      image.ph i image.format.pFilesz) : Run Event PUnit).result =
      if ¬ (image.format.width = 64 ∧ image.ph i image.format.pMemsz <
        image.ph i image.format.pFilesz) then some () else none := by
    rw [refuse, ite_not]
    split
    · rfl
    · rfl
  rw [loadSegment, result_readPh_bind]
  by_cases type : image.ph i image.format.pType = 1
  · rw [if_pos type, result_readPh_bind]
    by_cases memsz : image.ph i image.format.pMemsz ≠ 0
    · have fills : image.Fills i ↔ ¬ (image.format.width = 64 ∧
          image.ph i image.format.pMemsz < image.ph i image.format.pFilesz) :=
        ⟨fun fills => fills type memsz, fun fills _ _ => fills⟩
      rw [if_pos memsz, result_readPh_bind, result_readPh_bind, if_congr fills rfl rfl]
      split
      · rw [result_readPh_bind, result_refuse_bind, if_neg (Nat.not_lt.mpr fits),
          result_bind_total (result_writeFile _ _ _), result_emit_bind, zeros]
      · rw [result_emit_bind, zeros]
    · have fills : image.Fills i := fun _ some => absurd some memsz
      rw [if_neg memsz, if_pos fills]
      rfl
  · have fills : image.Fills i := fun other => absurd other type
    rw [if_neg type, if_pos fills]
    rfl

theorem result_loadSegments (headers : ∀ i < image.phnum, image.Fits i) : image.loadSegments.result =
    if ∀ i < image.phnum, image.Fills i then some () else none :=
  result_loop _ (fun _ _ => ()) fun i inside _ => result_loadSegment (headers i inside)

theorem safe_loadSegments (headers : ∀ i < image.phnum, image.Fits i) (table : image.TableIn) :
    All (Event.Safe image.size) image.loadSegments ↔ ∀ i < image.phnum, image.SegmentIn i := by
  have steps : ∀ i < image.phnum, ∀ _ : Unit, (image.loadSegment i).result =
      if image.Fills i then some () else none := fun i inside _ => result_loadSegment (headers i inside)
  have bodies : ∀ i < image.phnum, ∀ _ : Unit,
      All (Event.Safe image.size) (image.loadSegment i) ↔ image.SegmentIn i :=
    fun i inside _ => safe_loadSegment inside table (headers i inside)
  refine (all_loop_passes _ (fun _ _ => ()) steps bodies).trans ?_
  constructor
  · intro segments i inside
    induction i using Nat.strong_induction_on with
    | _ i ih =>
      exact segments i inside fun j before => (ih j before (Nat.lt_trans before inside)).fills
  · exact fun segments i inside _ => segments i inside

end Load

section Sections

def Inside (i : Nat) : Prop :=
  image.sum (image.sh i image.format.shOffset) (image.sh i image.format.shSize) ≤ image.size

instance : DecidablePred image.Inside := fun _ => inferInstanceAs (Decidable (_ ≤ _))

structure Listed : Prop where
  table : (image.shoff + image.shdrTable) % 2 ^ 64 ≤ image.size
  strings : image.shstrndx < image.shnum
  inside : image.Inside image.shstrndx

instance : Decidable image.Listed :=
  decidable_of_iff ((image.shoff + image.shdrTable) % 2 ^ 64 ≤ image.size ∧ image.shstrndx < image.shnum ∧
    image.Inside image.shstrndx) ⟨fun parts => ⟨parts.1, parts.2.1, parts.2.2⟩,
      fun listed => ⟨listed.table, listed.strings, listed.inside⟩⟩

def Skipped (i : Nat) : Prop := image.sh i image.format.shType &&& 8 ≠ 0

instance : DecidablePred image.Skipped := fun _ => inferInstanceAs (Decidable (_ ≠ _))

def Passes (i : Nat) : Prop := image.Skipped i ∨ image.Inside i

instance : DecidablePred image.Passes := fun _ => inferInstanceAs (Decidable (_ ∨ _))

/-- What is read of a section to find the tables. -/
def SectionIn (i : Nat) : Prop :=
  image.Has (image.shdr i) image.format.shType ∧ (¬ image.Skipped i →
    image.Has (image.shdr i) image.format.shOffset ∧ image.Has (image.shdr i) image.format.shSize ∧
      (image.Inside i → image.NameIn i strtab ∧ image.NameIn i symtab))

instance : DecidablePred image.SectionIn := fun _ => inferInstanceAs (Decidable (_ ∧ (_ → _ ∧ _ ∧ (_ → _))))

def nextTables (i : Nat) (tables : Tables) : Tables :=
  if image.Skipped i then tables
  else ⟨if image.named i strtab then i else tables.strtab, if image.named i symtab then i else tables.symtab⟩

/-- The last section with a name, of those that are not skipped. -/
def IsTable (name : List Byte) (i : Nat) : Prop :=
  Last (fun i => ¬ image.Skipped i ∧ image.named i name) image.shnum i

instance {name : List Byte} : DecidablePred (image.IsTable name) := fun _ =>
  inferInstanceAs (Decidable (Last _ _ _))

variable {image}

theorem result_checkSections : image.checkSections.result = if image.Listed then some () else none := by
  rw [checkSections, result_refuse_bind, result_refuse_bind, result_readSh_bind, result_readSh_bind]
  by_cases table : (image.shoff + image.shdrTable) % 2 ^ 64 ≤ image.size
  · rw [if_neg (Nat.not_lt.mpr table)]
    by_cases strings : image.shstrndx < image.shnum
    · rw [if_neg (Nat.not_le.mpr strings), refuse]
      by_cases inside : image.Inside image.shstrndx
      · rw [if_neg (Nat.not_lt.mpr inside), if_pos ⟨table, strings, inside⟩]
        rfl
      · rw [if_pos (Nat.not_le.mp inside), if_neg fun listed => inside listed.inside]
        rfl
    · rw [if_pos (Nat.not_lt.mp strings), if_neg fun listed => strings listed.strings]
  · rw [if_pos (Nat.not_le.mp table), if_neg fun listed => table listed.table]

theorem safe_checkSections : All (Event.Safe image.size) image.checkSections ↔
    ((image.shoff + image.shdrTable) % 2 ^ 64 ≤ image.size → image.shstrndx < image.shnum →
      image.Has (image.shdr image.shstrndx) image.format.shOffset ∧
        image.Has (image.shdr image.shstrndx) image.format.shSize) := by
  rw [checkSections, all_refuse_bind, all_refuse_bind, all_readSh_bind, all_readSh_bind,
    Nat.not_lt, Nat.not_le]
  simp only [all_refuse, and_true]
  rfl

theorem result_pick (i : Nat) (name : List Byte) (before : Nat) :
    (image.pick i name before).result = some (if image.named i name then i else before) := by
  rw [pick, result_bind_total (result_sectionIs i name)]
  rfl

theorem safe_pick (i : Nat) (name : List Byte) (before : Nat) :
    All (Event.Safe image.size) (image.pick i name before) ↔ image.NameIn i name := by
  rw [pick, all_bind_total (result_sectionIs i name), safe_sectionIs]
  exact and_iff_left (all_pure _)

theorem result_findTable (i : Nat) (tables : Tables) : (image.findTable i tables).result =
    if image.Passes i then some (image.nextTables i tables) else none := by
  rw [findTable, result_readSh_bind]
  change (if image.Skipped i then pure tables else _ : Run Event Tables).result = _
  by_cases skipped : image.Skipped i
  · have passes : image.Passes i := .inl skipped
    rw [if_pos skipped, if_pos passes, nextTables, if_pos skipped]
    rfl
  · rw [if_neg skipped, result_readSh_bind, result_readSh_bind, result_refuse_bind,
      result_bind_total (result_pick i strtab _), result_bind_total (result_pick i symtab _)]
    by_cases inside : image.Inside i
    · have passes : image.Passes i := .inr inside
      rw [if_neg (Nat.not_lt.mpr inside), if_pos passes, nextTables, if_neg skipped]
      rfl
    · have stops : ¬ image.Passes i := not_or.mpr ⟨skipped, inside⟩
      rw [if_pos (Nat.not_le.mp inside), if_neg stops]

theorem safe_findTable (i : Nat) (tables : Tables) :
    All (Event.Safe image.size) (image.findTable i tables) ↔ image.SectionIn i := by
  rw [findTable, all_readSh_bind, all_ite, all_readSh_bind, all_readSh_bind, all_refuse_bind,
    all_bind_total (result_pick i strtab _), all_bind_total (result_pick i symtab _), safe_pick, safe_pick,
    Nat.not_lt]
  simp only [all_pure, and_true, implies_true, true_and]
  rfl

def tables (image : Image) : Tables := folded image.nextTables ⟨0, 0⟩ image.shnum

theorem result_findTables : image.findTables.result =
    if ∀ i < image.shnum, image.Passes i then some image.tables else none :=
  result_loop _ _ fun i _ => result_findTable i

theorem safe_findTables : All (Event.Safe image.size) image.findTables ↔
    ∀ i < image.shnum, (∀ j < i, image.Passes j) → image.SectionIn i :=
  all_loop_passes _ _ (fun i _ => result_findTable i) fun i _ => safe_findTable i

/-- The tables that a name gives after the sections before. -/
def picked (image : Image) (name : List Byte) (count : Nat) : Nat :=
  folded (fun i before => if ¬ image.Skipped i ∧ image.named i name then i else before) 0 count

theorem picked_succ (name : List Byte) (count : Nat) : image.picked name (count + 1) =
    if ¬ image.Skipped count ∧ image.named count name then count else image.picked name count := rfl

theorem folded_nextTables (count : Nat) :
    folded image.nextTables ⟨0, 0⟩ count = ⟨image.picked strtab count, image.picked symtab count⟩ := by
  induction count with
  | zero => rfl
  | succ count ih =>
    rw [folded, ih, nextTables, picked_succ, picked_succ]
    by_cases skipped : image.Skipped count
    · simp [skipped]
    · simp [skipped]

theorem picked_eq (name : List Byte) {found : Nat} (positive : found ≠ 0) :
    image.picked name image.shnum = found ↔ image.IsTable name found := by
  rw [picked, folded_last _ (fun i => i) _ _ positive]
  constructor
  · rintro ⟨i, -, last, rfl⟩
    exact last
  · intro last
    exact ⟨found, last.1, last, rfl⟩

end Sections

section Symbols

/-- The string table and the symbol table are found, neither as the first section. -/
structure Found (str sym : Nat) : Prop where
  strings : image.IsTable strtab str
  symbols : image.IsTable symtab sym
  someStrings : str ≠ 0
  someSymbols : sym ≠ 0

def symbol (sym i : Nat) : Nat := image.sh sym image.format.shOffset + i * image.format.symSize

/-- The symbols of a table that its index reaches. -/
def symbolCount (sym : Nat) : Nat := min (image.sh sym image.format.shSize / image.format.symSize) (2 ^ 32)

def stName (sym i : Nat) : Nat := image.get (image.symbol sym i) image.format.stName

def nameSpace (str sym i : Nat) : Nat := image.maxlen (image.sh str image.format.shSize) (image.stName sym i)

def namePlace (str sym i : Nat) : Nat := image.sh str image.format.shOffset + image.stName sym i

def nameLength (str sym i : Nat) : Nat :=
  image.strnlen (image.namePlace str sym i) (image.nameSpace str sym i)

def SymbolFits (str sym i : Nat) : Prop :=
  image.stName sym i < image.sh str image.format.shSize ∧
    image.nameLength str sym i < image.nameSpace str sym i

instance {str sym : Nat} : DecidablePred (image.SymbolFits str sym) := fun _ =>
  inferInstanceAs (Decidable (_ ∧ _))

/-- What is read of a symbol and its name. -/
def SymbolIn (str sym i : Nat) : Prop :=
  image.Has (image.symbol sym i) image.format.stName ∧
  (image.stName sym i < image.sh str image.format.shSize →
    (image.nameSpace str sym i ≠ 0 → image.namePlace str sym i % 2 ^ 64 +
      min (image.nameLength str sym i + 1) (image.nameSpace str sym i) ≤ image.size) ∧
    (image.nameLength str sym i < image.nameSpace str sym i →
      image.Has (image.symbol sym i) image.format.stValue))

instance {str sym : Nat} : DecidablePred (image.SymbolIn str sym) := fun _ =>
  inferInstanceAs (Decidable (_ ∧ (_ → (_ → _) ∧ (_ → _))))

variable {image}

theorem found_iff {str sym : Nat} :
    image.Found str sym ↔ (str ≠ 0 ∧ sym ≠ 0) ∧ image.tables = ⟨str, sym⟩ := by
  rw [tables, folded_nextTables, Tables.mk.injEq]
  constructor
  · rintro ⟨strings, symbols, someStrings, someSymbols⟩
    exact ⟨⟨someStrings, someSymbols⟩, (picked_eq _ someStrings).mpr strings,
      (picked_eq _ someSymbols).mpr symbols⟩
  · rintro ⟨⟨someStrings, someSymbols⟩, strings, symbols⟩
    exact ⟨(picked_eq _ someStrings).mp strings, (picked_eq _ someSymbols).mp symbols, someStrings,
      someSymbols⟩

theorem forall_found {holds : Nat → Nat → Prop} : (∀ str sym, image.Found str sym → holds str sym) ↔
    (image.tables.strtab ≠ 0 ∧ image.tables.symtab ≠ 0 → holds image.tables.strtab image.tables.symtab) := by
  simp only [found_iff]
  constructor
  · intro all some
    exact all _ _ ⟨some, rfl⟩
  · rintro one str sym ⟨some, same⟩
    rw [same] at one
    exact one some

theorem result_readName (place maxlen : Nat) : (image.readName place maxlen).result =
    some ((List.range (image.strnlen place maxlen)).map fun index => image.byteAt (place + index)) := by
  rw [readName]
  split
  · rfl
  · rfl

theorem safe_readName (place maxlen : Nat) : All (Event.Safe image.size) (image.readName place maxlen) ↔
    (maxlen ≠ 0 → place % 2 ^ 64 + min (image.strnlen place maxlen + 1) maxlen ≤ image.size) := by
  rw [readName, all_ite, all_emit_bind]
  simp only [all_pure, implies_true, and_true]
  rfl

theorem result_addSymbol (str sym i : Nat) :
    (image.addSymbol ⟨str, sym⟩ (image.sh str image.format.shOffset)
      (image.sh sym image.format.shOffset) i).result =
        if image.SymbolFits str sym i then some () else none := by
  rw [addSymbol, result_readSh_bind, result_read_bind, result_refuse_bind,
    result_bind_total (result_readName _ _), result_refuse_bind, result_read_bind, result_emit,
    List.length_map, List.length_range]
  change (if _ ≤ image.stName sym i then _ else if image.nameSpace str sym i ≤ image.nameLength str sym i
    then _ else _) = _
  by_cases name : image.stName sym i < image.sh str image.format.shSize
  · rw [if_neg (Nat.not_le.mpr name)]
    by_cases ends : image.nameLength str sym i < image.nameSpace str sym i
    · rw [if_neg (Nat.not_le.mpr ends), if_pos ⟨name, ends⟩]
    · rw [if_pos (Nat.not_lt.mp ends), if_neg fun fits => ends fits.2]
  · rw [if_pos (Nat.not_lt.mp name), if_neg fun fits => name fits.1]

theorem safe_addSymbol (str sym i : Nat) (size : image.Has (image.shdr str) image.format.shSize) :
    All (Event.Safe image.size) (image.addSymbol ⟨str, sym⟩ (image.sh str image.format.shOffset)
      (image.sh sym image.format.shOffset) i) ↔ image.SymbolIn str sym i := by
  rw [addSymbol, all_readSh_bind, all_read_bind, all_refuse_bind, all_bind_total (result_readName _ _),
    safe_readName, all_refuse_bind, all_read_bind, all_emit, List.length_map, List.length_range, Nat.not_le,
    Nat.not_le]
  constructor
  · rintro ⟨-, name, rest⟩
    refine ⟨name, fun before => ⟨(rest before).1, fun ends => ((rest before).2 ends).1⟩⟩
  · rintro ⟨name, rest⟩
    exact ⟨size, name, fun before => ⟨(rest before).1, fun ends => ⟨(rest before).2 ends, trivial⟩⟩⟩

theorem result_again (count : Nat) : (again count).result = some () := by
  rw [again]
  split
  · rfl
  · rfl

theorem safe_again (size count : Nat) : All (Event.Safe size) (again count) := by
  rw [again, all_ite]
  exact ⟨fun _ => (all_emit _).mpr trivial, fun _ => all_pure _⟩

theorem result_addSymbols (str sym : Nat) : (image.addSymbols ⟨str, sym⟩).result =
    if str ≠ 0 ∧ sym ≠ 0 → ∀ i < image.symbolCount sym, image.SymbolFits str sym i
      then some () else none := by
  rw [addSymbols]
  by_cases found : str ≠ 0 ∧ sym ≠ 0
  · have turns : (loop (fun i _ => image.addSymbol ⟨str, sym⟩ (image.sh str image.format.shOffset)
        (image.sh sym image.format.shOffset) i) ()
        (min (image.sh sym image.format.shSize / image.format.symSize) (2 ^ 32))).result =
        if ∀ i < image.symbolCount sym, image.SymbolFits str sym i then some () else none :=
      result_loop _ (fun _ _ => ()) fun i _ _ => result_addSymbol str sym i
    rw [if_pos found, result_readSh_bind, result_readSh_bind, result_readSh_bind,
      result_bind_of_result turns, result_again]
    apply if_congr
    · exact ⟨fun fits _ => fits, fun fits => fits found⟩
    · rfl
    · rfl
  · rw [if_neg found, if_pos fun other => absurd other found]
    rfl

theorem safe_addSymbols (str sym : Nat) (found : str ≠ 0 ∧ sym ≠ 0 →
      (image.Has (image.shdr str) image.format.shOffset ∧ image.Has (image.shdr str) image.format.shSize) ∧
      image.Has (image.shdr sym) image.format.shOffset ∧ image.Has (image.shdr sym) image.format.shSize) :
    All (Event.Safe image.size) (image.addSymbols ⟨str, sym⟩) ↔ (str ≠ 0 ∧ sym ≠ 0 →
      ∀ i < image.symbolCount sym, (∀ j < i, image.SymbolFits str sym j) → image.SymbolIn str sym i) := by
  rw [addSymbols, all_ite, all_readSh_bind, all_readSh_bind, all_readSh_bind]
  apply (and_iff_left fun _ => all_pure _).trans
  apply forall_congr'
  intro some
  rcases found some with ⟨⟨offset, size⟩, symbols⟩
  apply (and_iff_right offset).trans
  apply (and_iff_right symbols.1).trans
  apply (and_iff_right symbols.2).trans
  rw [all_bind]
  apply (and_iff_left fun _ _ => safe_again _ _).trans
  exact all_loop_passes _ (fun _ _ => ()) (fun i _ _ => result_addSymbol str sym i)
    fun i _ _ => safe_addSymbol str sym i size

end Symbols
end Image
end RevCPU.Elf
