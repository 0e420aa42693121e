import RevCPU.BootSegments
import RevCPU.ElfBounds
import RevCPU.ProgramArgs
import RevCPU.Lib.Perform
/-!
From a file to the first instruction: the constructor of RevLoader.cc, which performs on the memory what
LoadElf asks for and lays out the arguments, and Reset of RevProc.cc. Below the arguments the memory then
holds what the program headers say, and the registers point at the program.
-/
namespace RevCPU.Boot
open RegFile Mem Heap Elf Loader MemRefine Prefetch Trace Run

inductive LoadFault where
  | refused
  -- A vector of zeros of negative length.
  | length (memsz filesz : Nat)
  | memory (fault : MemFault)
  | segments (fault : LoaderFault)
  | heap (fault : HeapFault)
  | main
  -- The loop over the symbols does not end.
  | endless

/-- RevLoader with the memory it fills; `entry` is that of the file's class. -/
structure RevLoader where
  heap : HeapMem
  entry : Nat
  symtable : List Byte → Option Nat

namespace RevLoader

def mem (loader : RevLoader) : RevMem := loader.heap.mem

def setMem (loader : RevLoader) (mem : RevMem) : RevLoader :=
  { loader with heap := { loader.heap with mem := mem } }

@[simp] theorem setMem_mem (loader : RevLoader) (mem : RevMem) : (loader.setMem mem).mem = mem := rfl

@[simp] theorem setMem_symtable (loader : RevLoader) (mem : RevMem) :
    (loader.setMem mem).symtable = loader.symtable := rfl

def getSymbolAddr (loader : RevLoader) (symbol : List Byte) : Nat := (loader.symtable symbol).getD 0

/-- A WriteCacheLine, given its address and length as numbers. -/
def write (loader : RevLoader) (addr len : Nat) (data : Buffer) : Except LoadFault RevLoader :=
  match storeLine (BitVec.ofNat 64 addr) (BitVec.ofNat 64 len) data loader.mem with
  | .error fault => .error (.memory fault)
  | .ok mem => .ok (loader.setMem mem)

end RevLoader

/-- `__PAGE_SIZE__`, to which the sizes of the segments are rounded. -/
def roundUpSize : Nat := 4096

section Load

/-- What a call of LoadElf32 or LoadElf64 does; reading the file changes nothing. -/
def act (image : Image) (loader : RevLoader) : Event → Except LoadFault RevLoader
  | .read _ _ => .ok loader
  | .entry addr => .ok { loader with entry := addr }
  | .segment base size =>
    match addRoundedMemSeg loader.mem base size roundUpSize with
    | .error fault => .error (.segments fault)
    | .ok (_, mem) => .ok (loader.setMem mem)
  | .write addr source len => loader.write addr len fun index => image.byteAt (source + index)
  | .fill addr memsz filesz =>
    if image.format.width = 64 ∧ memsz < filesz then .error (.length memsz filesz)
    else loader.write addr
      ((memsz + 2 ^ image.format.width - filesz) % 2 ^ image.format.width) fun _ => 0
  | .stackTop addr => .ok (loader.setMem { loader.mem with stacktop := addr })
  | .symbol name value => .ok { loader with symtable := Function.update loader.symtable name (some value) }
  | .again => .error .endless
  | .heap addr =>
    match loader.heap.initHeap addr with
    | .error fault => .error (.heap fault)
    | .ok heap => .ok { loader with heap := heap }

def loadClass (image : Image) (loader : RevLoader) : Except LoadFault RevLoader :=
  match perform (act image) loader (image.loadElf loader.mem.stacktop).events with
  | .error fault => .error fault
  | .ok after => if (image.loadElf loader.mem.stacktop).result = none then .error .refused else .ok after

def isElf (file : File) : Bool :=
  file.bytes 0 == 0x7f && file.bytes 1 == 69 && file.bytes 2 == 76 && file.bytes 3 == 70

def isRVElf32 (file : File) : Bool := isElf file && file.bytes 4 == 1

def isRVElf64 (file : File) : Bool := isElf file && file.bytes 4 == 2

def isRVLittle (file : File) : Bool := isElf file && file.bytes 5 == 1

def imageOf (file : File) : Image := ⟨file, if isRVElf32 file then elf32 else elf64⟩

/-- The constructor, with the mapped file for the name of the executable. -/
def loadElf (file : File) (exe args : List Byte) (loader : RevLoader) :
    Except LoadFault (List (List Byte) × RevLoader) :=
  if file.size < elf64.ehdrSize then .error .refused
  else if !isRVElf32 file && !isRVElf64 file then .error .refused
  else if !isRVLittle file then .error .refused
  else
    match loadClass (imageOf file) loader with
    | .error fault => .error fault
    | .ok loader =>
      match loadProgramArgs storeLine (BitVec.ofNat 64 loader.mem.memSize)
          (BitVec.ofNat 64 loader.mem.stacktop) exe args loader.mem with
      | .error fault => .error (.memory fault)
      | .ok (argv, mem) => .ok (argv, loader.setMem mem)

end Load

section Start

def mainSymbol : List Byte := [109, 97, 105, 110]

-- "__global_pointer$"
def globalPointer : List Byte :=
  [95, 95, 103, 108, 111, 98, 97, 108, 95, 112, 111, 105, 110, 116, 101, 114, 36]

/-- The options of a core for its first instruction: an address, 0 for none, and a symbol. -/
structure StartOpts where
  startAddr : Nat := 0
  startSymbol : List Byte := mainSymbol

/-- Where Reset sets the PC, given the addresses of the symbols. -/
def startOf (opts : StartOpts) (symbolAddr : List Byte → Nat) : Option Nat :=
  let startAddr := if opts.startAddr = 0 then symbolAddr opts.startSymbol else opts.startAddr
  let startAddr := if startAddr = 0 then symbolAddr mainSymbol else startAddr
  if startAddr = 0 then none else some startAddr

def resetRegs (opts : StartOpts) (argv : List (List Byte)) (loader : RevLoader) :
    Except LoadFault RevRegFile :=
  match startOf opts loader.getSymbolAddr with
  | none => .error .main
  | some startAddr =>
    .ok (reset (BitVec.ofNat 64 loader.mem.stacktop)
      (BitVec.ofNat 64 (loader.getSymbolAddr globalPointer)) (BitVec.ofNat 64 startAddr) argv)

/-- The loader and the registers with which a core starts. -/
def boot (file : File) (exe args : List Byte) (opts : StartOpts) (loader : RevLoader) :
    Except LoadFault (RevLoader × RevRegFile) :=
  match loadElf file exe args loader with
  | .error fault => .error fault
  | .ok (argv, loader) =>
    match resetRegs opts argv loader with
    | .error fault => .error fault
    | .ok regs => .ok (loader, regs)

/-- The loader over a memory that nothing has used; the heap is where it happens to be. -/
def freshLoader (memSize tlbSize heapstart heapend maxHeapSize : Nat) : RevLoader where
  heap := {
    mem := RevMem.new memSize tlbSize heapstart heapend
    freeMemSegs := []
    maxHeapSize := maxHeapSize }
  entry := 0
  symtable := fun _ => none

end Start

section Contents
variable (image : Image)

def paddr (i : Nat) : Nat := image.ph i image.format.pPaddr

def memsz (i : Nat) : Nat := image.ph i image.format.pMemsz

def filesz (i : Nat) : Nat := image.ph i image.format.pFilesz

def offset (i : Nat) : Nat := image.ph i image.format.pOffset

def Loads (i : Nat) : Prop := image.ph i image.format.pType = 1 ∧ memsz image i ≠ 0

instance : DecidablePred (Loads image) := fun _ => inferInstanceAs (Decidable (_ ∧ _))

/-- What the first headers put into a memory; where segments overlap, the last one decides. -/
def contents (before : Nat → Byte) : Nat → Nat → Byte
  | 0, cell => before cell
  | i + 1, cell =>
    if Loads image i ∧ paddr image i ≤ cell ∧ cell < paddr image i + memsz image i then
      if cell < paddr image i + filesz image i then
        image.byteAt (offset image i + (cell - paddr image i))
      else 0
    else contents before i cell

/-- The program header table under the top of the stack, and nothing else. -/
def tableOnly (stackTop cell : Nat) : Byte :=
  if stackTop - image.phdrTable ≤ cell ∧ cell < stackTop then
    image.byteAt (image.phoff + (cell - (stackTop - image.phdrTable)))
  else 0

def nameOf (str sym i : Nat) : List Byte :=
  (List.range (image.nameLength str sym i)).map fun index => image.byteAt (image.namePlace str sym i + index)

/-- The value of the last of the first symbols that has a name. -/
def valueOf (str sym : Nat) : Nat → List Byte → Option Nat
  | 0, _ => none
  | i + 1, name =>
    if name = nameOf image str sym i then some (image.get (image.symbol sym i) image.format.stValue)
    else valueOf str sym i name

/-- The symbols of a file, none if it has no tables. -/
def symbols : List Byte → Option Nat :=
  if image.tables.strtab ≠ 0 ∧ image.tables.symtab ≠ 0 then
    valueOf image image.tables.strtab image.tables.symtab (image.symbolCount image.tables.symtab)
  else fun _ => none

end Contents
end RevCPU.Boot
