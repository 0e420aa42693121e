import RevCPU.Mem
import RevCPU.Lib.LittleEndian
import RevCPU.Lib.Trace
/-!
LoadElf32 and LoadElf64 of RevLoader.cc, which differ in the layout of the structs and the width of offsets
and sizes. What a run reads of the file and asks of the memory is its trace; a fatal error stops it. The
memory is taken to accept every call: where it does not, the run ends there.
-/
namespace RevCPU.Elf
open Mem Trace Run

structure Field where
  offset : Nat
  len : Nat

/-- The structs of a class; `width` is that of its offsets, addresses and sizes. -/
structure Format where
  width : Nat
  ehdrSize : Nat
  eEntry : Field
  ePhoff : Field
  eShoff : Field
  ePhnum : Field
  eShnum : Field
  eShstrndx : Field
  phdrSize : Nat
  pType : Field
  pOffset : Field
  pPaddr : Field
  pFilesz : Field
  pMemsz : Field
  shdrSize : Nat
  shName : Field
  shType : Field
  shAddr : Field
  shOffset : Field
  shSize : Field
  symSize : Nat
  stName : Field
  stValue : Field
  phdrSome : 0 < phdrSize
  phdrFields : ∀ field ∈ [pType, pOffset, pPaddr, pFilesz, pMemsz], field.offset + field.len ≤ phdrSize
  offsets : ePhoff.len ≤ 8 ∧ pOffset.len ≤ 8

def elf32 : Format where
  width := 32
  ehdrSize := 52
  eEntry := ⟨24, 4⟩
  ePhoff := ⟨28, 4⟩
  eShoff := ⟨32, 4⟩
  ePhnum := ⟨44, 2⟩
  eShnum := ⟨48, 2⟩
  eShstrndx := ⟨50, 2⟩
  phdrSize := 32
  pType := ⟨0, 4⟩
  pOffset := ⟨4, 4⟩
  pPaddr := ⟨12, 4⟩
  pFilesz := ⟨16, 4⟩
  pMemsz := ⟨20, 4⟩
  shdrSize := 40
  shName := ⟨0, 4⟩
  shType := ⟨4, 4⟩
  shAddr := ⟨12, 4⟩
  shOffset := ⟨16, 4⟩
  shSize := ⟨20, 4⟩
  symSize := 16
  stName := ⟨0, 4⟩
  stValue := ⟨4, 4⟩
  phdrSome := by decide
  phdrFields := by decide
  offsets := by decide

def elf64 : Format where
  width := 64
  ehdrSize := 64
  eEntry := ⟨24, 8⟩
  ePhoff := ⟨32, 8⟩
  eShoff := ⟨40, 8⟩
  ePhnum := ⟨56, 2⟩
  eShnum := ⟨60, 2⟩
  eShstrndx := ⟨62, 2⟩
  phdrSize := 56
  pType := ⟨0, 4⟩
  pOffset := ⟨8, 8⟩
  pPaddr := ⟨24, 8⟩
  pFilesz := ⟨32, 8⟩
  pMemsz := ⟨40, 8⟩
  shdrSize := 64
  shName := ⟨0, 4⟩
  shType := ⟨4, 4⟩
  shAddr := ⟨16, 8⟩
  shOffset := ⟨24, 8⟩
  shSize := ⟨32, 8⟩
  symSize := 24
  stName := ⟨0, 4⟩
  stValue := ⟨8, 8⟩
  phdrSome := by decide
  phdrFields := by decide
  offsets := by decide

/-- membuf and what lies around it: a place is counted from membuf, modulo the width of a pointer. -/
structure File where
  bytes : Nat → Byte
  size : Nat
  bounded : size < 2 ^ 64

structure Image extends File where
  format : Format

inductive Event where
  | read (place len : Nat)
  | entry (addr : Nat)
  | segment (base size : Nat)
  | write (addr source len : Nat)
  | fill (addr memsz filesz : Nat)
  | stackTop (addr : Nat)
  | symbol (name : List Byte) (value : Nat)
  -- From here on the run repeats what it has done, and does not end.
  | again
  | heap (addr : Nat)
deriving DecidableEq

namespace Image
variable (image : Image)

def byteAt (place : Nat) : Byte := image.bytes (place % 2 ^ 64)

def get (base : Nat) (field : Field) : Nat :=
  LittleEndian.value (fun index => image.byteAt (base + field.offset + index)) field.len

section Structs

def phoff : Nat := image.get 0 image.format.ePhoff

def shoff : Nat := image.get 0 image.format.eShoff

def phnum : Nat := image.get 0 image.format.ePhnum

def shnum : Nat := image.get 0 image.format.eShnum

def shstrndx : Nat := image.get 0 image.format.eShstrndx

def phdr (i : Nat) : Nat := image.phoff + i * image.format.phdrSize

def shdr (i : Nat) : Nat := image.shoff + i * image.format.shdrSize

def ph (i : Nat) (field : Field) : Nat := image.get (image.phdr i) field

def sh (i : Nat) (field : Field) : Nat := image.get (image.shdr i) field

def shstrtab : Nat := image.sh image.shstrndx image.format.shOffset

def sum (first second : Nat) : Nat := (first + second) % 2 ^ image.format.width

def phdrTable : Nat := image.phnum * image.format.phdrSize

def shdrTable : Nat := image.shnum * image.format.shdrSize

end Structs

section Read

def read (base : Nat) (field : Field) : Run Event Nat := do
  emit (.read ((base + field.offset) % 2 ^ 64) field.len)
  pure (image.get base field)

def readPh (i : Nat) (field : Field) : Run Event Nat := image.read (image.phdr i) field

def readSh (i : Nat) (field : Field) : Run Event Nat := image.read (image.shdr i) field

/-- Whether strcmp with a name, given with its terminator, returns 0. -/
def strcmp (place : Nat) : List Byte → Run Event Bool
  | [] => pure true
  | char :: rest => do
    emit (.read (place % 2 ^ 64) 1)
    if image.byteAt place = char then strcmp (place + 1) rest else pure false

def strnlen (place : Nat) : Nat → Nat
  | 0 => 0
  | maxlen + 1 => if image.byteAt place = 0 then 0 else strnlen (place + 1) maxlen + 1

def bss : List Byte := [46, 98, 115, 115, 0]

def text : List Byte := [46, 116, 101, 120, 116, 0]

def data : List Byte := [46, 100, 97, 116, 97, 0]

def strtab : List Byte := [46, 115, 116, 114, 116, 97, 98, 0]

def symtab : List Byte := [46, 115, 121, 109, 116, 97, 98, 0]

def sectionIs (i : Nat) (name : List Byte) : Run Event Bool := do
  let shName ← image.readSh i image.format.shName
  image.strcmp (image.shstrtab + shName) name

end Read

section Describe

def addSegment (i : Nat) : Run Event Unit := do
  let offset ← image.readPh i image.format.pOffset
  let filesz ← image.readPh i image.format.pFilesz
  refuse (image.size < image.sum offset filesz)
  let memsz ← image.readPh i image.format.pMemsz
  if memsz ≠ 0 then do
    let paddr ← image.readPh i image.format.pPaddr
    emit (.segment paddr memsz)
  else pure ()

def addSegments : Run Event Unit := loop (fun i _ => image.addSegment i) () image.phnum

structure Ends where
  bss : Nat
  text : Nat
  data : Nat

def endOf (i : Nat) (name : List Byte) (before : Nat) : Run Event Nat := do
  let same ← image.sectionIs i name
  if same then do
    let addr ← image.readSh i image.format.shAddr
    let size ← image.readSh i image.format.shSize
    pure (image.sum addr size)
  else pure before

def sectionEnd (i : Nat) (ends : Ends) : Run Event Ends := do
  let bssEnd ← image.endOf i bss ends.bss
  let textEnd ← image.endOf i text ends.text
  let dataEnd ← image.endOf i data ends.data
  pure ⟨bssEnd, textEnd, dataEnd⟩

def sectionEnds : Run Event Ends := loop image.sectionEnd ⟨0, 0, 0⟩ image.shnum

-- 0 if there is none of the sections.
def staticDataEnd (ends : Ends) : Nat :=
  if 0 < ends.bss then ends.bss else if 0 < ends.data then ends.data else ends.text

/-- Up to the first write to the memory. -/
def describe : Run Event Nat := do
  emit (.read 0 image.format.ehdrSize)
  let _ ← image.readSh image.shstrndx image.format.shOffset
  emit (.entry (image.get 0 image.format.eEntry))
  image.addSegments
  let ends ← image.sectionEnds
  refuse (staticDataEnd ends = 0)
  refuse (image.size < (image.phoff + image.phdrTable) % 2 ^ 64)
  pure (staticDataEnd ends)

end Describe

section Load

def writeFile (addr source len : Nat) : Run Event Unit :=
  if len ≠ 0 then emit (.write addr (source % 2 ^ 64) len) else pure ()

def writeHeaders (stackTop : Nat) : Run Event Unit := do
  let sp := (stackTop + 2 ^ 64 - image.phdrTable) % 2 ^ 64 % 2 ^ image.format.width
  writeFile sp image.phoff image.phdrTable
  emit (.stackTop sp)

-- PT_LOAD is 1.
def loadSegment (i : Nat) : Run Event Unit := do
  let type ← image.readPh i image.format.pType
  if type = 1 then do
    let memsz ← image.readPh i image.format.pMemsz
    if memsz ≠ 0 then do
      let filesz ← image.readPh i image.format.pFilesz
      let paddr ← image.readPh i image.format.pPaddr
      if filesz ≠ 0 then do
        let offset ← image.readPh i image.format.pOffset
        refuse (image.size < image.sum offset filesz)
        writeFile paddr offset filesz
      else pure ()
      emit (.fill (image.sum paddr filesz) memsz filesz)
      -- In 64 bits a negative length is more than a vector can have: std::length_error.
      refuse (image.format.width = 64 ∧ memsz < filesz)
    else pure ()
  else pure ()

def loadSegments : Run Event Unit := loop (fun i _ => image.loadSegment i) () image.phnum

def checkSections : Run Event Unit := do
  refuse (image.size < (image.shoff + image.shdrTable) % 2 ^ 64)
  refuse (image.shnum ≤ image.shstrndx)
  let offset ← image.readSh image.shstrndx image.format.shOffset
  let size ← image.readSh image.shstrndx image.format.shSize
  refuse (image.size < image.sum offset size)

structure Tables where
  strtab : Nat
  symtab : Nat

def pick (i : Nat) (name : List Byte) (before : Nat) : Run Event Nat := do
  let same ← image.sectionIs i name
  pure (if same then i else before)

-- `sh[i].sh_type & SHT_NOBITS`, with SHT_NOBITS 8, skips every type that has the bit.
def findTable (i : Nat) (tables : Tables) : Run Event Tables := do
  let type ← image.readSh i image.format.shType
  if type &&& 8 ≠ 0 then pure tables
  else do
    let offset ← image.readSh i image.format.shOffset
    let size ← image.readSh i image.format.shSize
    refuse (image.size < image.sum offset size)
    let strtab ← image.pick i strtab tables.strtab
    let symtab ← image.pick i symtab tables.symtab
    pure ⟨strtab, symtab⟩

def findTables : Run Event Tables := loop image.findTable ⟨0, 0⟩ image.shnum

/-- What is left of the string table behind a name; maxlen is an unsigned. -/
def maxlen (size name : Nat) : Nat := (size + 2 ^ image.format.width - name) % 2 ^ image.format.width % 2 ^ 32

/-- The symbol's name, which strnlen and the key of symtable read. -/
def readName (place maxlen : Nat) : Run Event (List Byte) := do
  if maxlen ≠ 0 then emit (.read (place % 2 ^ 64) (min (image.strnlen place maxlen + 1) maxlen)) else pure ()
  pure ((List.range (image.strnlen place maxlen)).map fun index => image.byteAt (place + index))

def addSymbol (tables : Tables) (strtab symtab i : Nat) : Run Event Unit := do
  let size ← image.readSh tables.strtab image.format.shSize
  let name ← image.read (symtab + i * image.format.symSize) image.format.stName
  refuse (size ≤ name)
  let key ← image.readName (strtab + name) (image.maxlen size name)
  refuse (image.maxlen size name ≤ key.length)
  let value ← image.read (symtab + i * image.format.symSize) image.format.stValue
  emit (.symbol key value)

-- The index is an unsigned: with 2^32 symbols or more it comes back to 0.
def again (count : Nat) : Run Event Unit := if 2 ^ 32 ≤ count then emit .again else pure ()

def addSymbols (tables : Tables) : Run Event Unit :=
  if tables.strtab ≠ 0 ∧ tables.symtab ≠ 0 then do
    let strtab ← image.readSh tables.strtab image.format.shOffset
    let symtab ← image.readSh tables.symtab image.format.shOffset
    let size ← image.readSh tables.symtab image.format.shSize
    loop (fun i _ => image.addSymbol tables strtab symtab i) () (min (size / image.format.symSize) (2 ^ 32))
    again (size / image.format.symSize)
  else pure ()

def loadElf (stackTop : Nat) : Run Event Unit := do
  let staticDataEnd ← image.describe
  image.writeHeaders stackTop
  image.loadSegments
  image.checkSections
  let tables ← image.findTables
  image.addSymbols tables
  emit (.heap staticDataEnd)

end Load
end Image

def loadElf32 (file : File) (stackTop : Nat) : Run Event Unit := Image.loadElf ⟨file, elf32⟩ stackTop

def loadElf64 (file : File) (stackTop : Nat) : Run Event Unit := Image.loadElf ⟨file, elf64⟩ stackTop

end RevCPU.Elf
