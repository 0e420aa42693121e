import RevCPU.CacheLine
import RevCPU.PrefetchWord
/-!
The arguments of the program: LoadProgramArgs of RevLoader.cc and what Reset makes of them. The strings are
laid down from the top of the memory, so the last argument ends there; with its terminator it is a whole
line when it has 63 characters, and the write behind that line is one at the end of the memory.
-/
namespace RevCPU.Loader
open RegFile Mem MemRefine Prefetch LoadStore

section Split
variable (c : Byte)

/-- The loop of splitStr; `rest` is what stands behind the last separator. -/
def splitFrom (rest : List Byte) : List (List Byte) :=
  match found : rest.findIdx? (· == c) with
  | none => [rest]
  | some j => rest.take j :: splitFrom (rest.drop (j + 1))
termination_by rest.length
decreasing_by
  have inside := (List.findIdx?_eq_some_iff_findIdx_eq.mp found).1
  rw [List.length_drop]
  omega

def splitStr (s : List Byte) : List (List Byte) :=
  match s.findIdx? (· == c) with
  | none => if 0 < s.length then [s] else []
  | some _ => splitFrom c s

theorem splitFrom_eq (rest : List Byte) : splitFrom c rest = rest.splitOn c := by
  induction rest using splitFrom.induct c with
  | case1 rest found =>
    have absent : ∀ char ∈ rest, (char == c) = false := List.findIdx?_eq_none_iff.mp found
    rw [splitFrom, List.splitOn_eq_splitOnP, List.splitOnP_eq_singleton absent]
    split
    · rfl
    · rename_i other
      rw [found] at other
      cases other
  | case2 rest j found ih =>
    obtain ⟨inside, hit, before⟩ := List.findIdx?_eq_some_iff_getElem.mp found
    have front : ∀ char ∈ rest.take j, (char == c) = false := by
      intro char member
      obtain ⟨index, bound, rfl⟩ := List.mem_iff_getElem.mp member
      rw [List.length_take] at bound
      rw [List.getElem_take]
      exact Bool.eq_false_iff.mpr (before index (by omega))
    have parts : rest = rest.take j ++ rest[j] :: rest.drop (j + 1) := by
      rw [← List.drop_eq_getElem_cons inside, List.take_append_drop]
    rw [splitFrom]
    split
    · rename_i other
      rw [found] at other
      cases other
    · rename_i same
      obtain rfl : _ = j := Option.some.inj (same.symm.trans found)
      rw [ih, List.splitOn_eq_splitOnP, List.splitOn_eq_splitOnP]
      conv => right; rw [parts]
      exact (List.splitOnP_append_cons_of_forall_mem front _ hit _).symm

theorem splitStr_eq (s : List Byte) : splitStr c s = if s = [] then [] else s.splitOn c := by
  rw [splitStr, ← splitFrom_eq]
  cases s with
  | nil => rfl
  | cons char rest =>
    rw [if_neg (List.cons_ne_nil _ _)]
    split
    · rename_i none
      rw [if_pos (show 0 < (char :: rest).length from Nat.succ_pos _), splitFrom]
      split
      · rfl
      · rename_i some
        rw [none] at some
        cases some
    · rfl

end Split

section Load
variable {σ ε : Type} (write : BitVec 64 → BitVec 64 → Buffer → σ → Except ε σ)

/-- The argument as tmpc holds it, with its terminator. -/
def argBuffer (arg : List Byte) : Buffer := fun index => (arg ++ [0]).getD index 0

-- `for( int i=(argv.size()-1); i >= 0; i-- )`
def stringOrder (argv : List (List Byte)) : List (List Byte) :=
  (argv.take ((BitVec.ofNat 32 (argv.length - 1)).toInt + 1).toNat).reverse

/-- The loop that writes the strings, downwards; it leaves OldStackTop. -/
def storeStrings : List (List Byte) → BitVec 64 → σ → Except ε (BitVec 64 × σ)
  | [], oldStackTop, mem => .ok (oldStackTop, mem)
  | arg :: rest, oldStackTop, mem =>
    let len := BitVec.ofNat 64 (arg.length + 1)
    match write (oldStackTop - len) len (argBuffer arg) mem with
    | .error fault => .error fault
    | .ok mem => storeStrings rest (oldStackTop - len) mem

/-- The loop that writes the addresses of the strings, upwards. -/
def storePointers : List (List Byte) → BitVec 64 → BitVec 64 → σ → Except ε σ
  | [], _, _, mem => .ok mem
  | arg :: rest, oldStackTop, argArray, mem =>
    match write argArray 8 (bytesOf oldStackTop) mem with
    | .error fault => .error fault
    | .ok mem => storePointers rest (oldStackTop + BitVec.ofNat 64 (arg.length + 1)) (argArray + 8) mem

def argvOf (exe args : List Byte) : List (List Byte) := exe :: splitStr 32 args

-- argv is never empty, for it has the name of the program.
def loadProgramArgs (memTop stackTop : BitVec 64) (exe args : List Byte) (mem : σ) :
    Except ε (List (List Byte) × σ) :=
  let argv := argvOf exe args
  let argArray := stackTop + 48
  match write argArray 4 (bytesOf (BitVec.ofNat 32 argv.length)) mem with
  | .error fault => .error fault
  | .ok mem =>
    let argArray := argArray + 4
    match storeStrings write (stringOrder argv) memTop mem with
    | .error fault => .error fault
    | .ok (oldStackTop, mem) =>
      match write argArray 8 (bytesOf (argArray + 8)) mem with
      | .error fault => .error fault
      | .ok mem =>
        match storePointers write argv oldStackTop (argArray + 8) mem with
        | .error fault => .error fault
        | .ok mem => .ok (argv, mem)

end Load

section Reset

def putBoth (regs : RevRegFile) (index : BitVec 8) (value : BitVec 64) : RevRegFile :=
  { regs with
      rv32 := Function.update regs.rv32 index (value.setWidth 32)
      rv64 := Function.update regs.rv64 index value }

def setupArgs (stackTop : BitVec 64) (argv : List (List Byte)) (regs : RevRegFile) : RevRegFile :=
  putBoth (putBoth regs 10 (BitVec.ofNat 64 argv.length)) 11 (stackTop + 60)

/-- The registers of a hart after Reset, given the symbols' addresses. -/
def reset (stackTop globalPointer startAddr : BitVec 64) (argv : List (List Byte)) : RevRegFile :=
  let regs : RevRegFile :=
    { rv32 := fun _ => 0, rv64 := fun _ => 0, spf := fun _ => 0, dpf := fun _ => 0, rv32PC := 0, rv64PC := 0 }
  let regs := putBoth (putBoth (putBoth regs 2 stackTop) 3 globalPointer) 8 globalPointer
  { setupArgs stackTop argv regs with rv32PC := startAddr.setWidth 32, rv64PC := startAddr }

end Reset

section Layout
variable (flat : Nat → Byte)

structure Copy (place : Nat) (arg : List Byte) : Prop where
  chars : ∀ index (inside : index < arg.length), flat (place + index) = arg[index]
  terminated : flat (place + arg.length) = 0

def stringsSize (argv : List (List Byte)) : Nat := (argv.map fun arg => arg.length + 1).sum

def Strings : List (List Byte) → Nat → Prop
  | [], _ => True
  | arg :: rest, place => Copy flat place arg ∧ Strings rest (place + (arg.length + 1))

def pointerAt (place : Nat) : Nat := (word64 fun index => flat (place + index)).toNat

/-- A table of the places of strings that lie so. -/
def Pointers : List (List Byte) → Nat → Nat → Prop
  | [], _, _ => True
  | arg :: rest, string, array =>
    pointerAt flat array = string ∧ Pointers rest (string + (arg.length + 1)) (array + 8)

structure Intact (argv : List (List Byte)) (stackTop memTop : Nat) (regs : RevRegFile) : Prop where
  stack : regs.rv64 2 = BitVec.ofNat 64 stackTop
  count : (word32 fun index => flat (stackTop + 48 + index)).toNat = argv.length
  a0 : (regs.rv64 10).toNat = argv.length ∧ (regs.rv32 10).toNat = argv.length
  a1 : regs.rv64 11 = regs.rv64 2 + 60 ∧ regs.rv32 11 = regs.rv32 2 + 60
  copies : ∀ index (inside : index < argv.length),
    Copy flat (pointerAt flat (stackTop + 60 + 8 * index)) argv[index]
  above : ∀ index < argv.length,
    stackTop + 60 + 8 * argv.length ≤ pointerAt flat (stackTop + 60 + 8 * index)
  below : ∀ index (inside : index < argv.length),
    pointerAt flat (stackTop + 60 + 8 * index) + argv[index].length < memTop
  apart : ∀ index (next : index + 1 < argv.length),
    pointerAt flat (stackTop + 60 + 8 * index) + argv[index].length <
      pointerAt flat (stackTop + 60 + 8 * (index + 1))

section Congr
variable {flat other : Nat → Byte}

theorem Copy.congr {place : Nat} {arg : List Byte} (copy : Copy flat place arg)
    (same : ∀ cell, place ≤ cell → cell < place + (arg.length + 1) → other cell = flat cell) :
    Copy other place arg := by
  constructor
  · intro index inside
    rw [same _ (by omega) (by omega)]
    exact copy.chars index inside
  · rw [same _ (by omega) (by omega)]
    exact copy.terminated

@[simp] theorem stringsSize_nil : stringsSize [] = 0 := rfl

@[simp] theorem stringsSize_cons (arg : List Byte) (rest : List (List Byte)) :
    stringsSize (arg :: rest) = arg.length + 1 + stringsSize rest := by
  rw [stringsSize, List.map_cons, List.sum_cons]
  rfl

theorem stringsSize_reverse (argv : List (List Byte)) : stringsSize argv.reverse = stringsSize argv := by
  rw [stringsSize, List.map_reverse, List.sum_reverse]
  rfl

theorem Strings.congr {argv : List (List Byte)} {place : Nat} (strings : Strings flat argv place)
    (same : ∀ cell, place ≤ cell → cell < place + stringsSize argv → other cell = flat cell) :
    Strings other argv place := by
  induction argv generalizing place with
  | nil => trivial
  | cons arg rest ih =>
    rw [stringsSize_cons] at same
    constructor
    · exact strings.1.congr fun cell above below => same cell above (by omega)
    · exact ih strings.2 fun cell above below => same cell (by omega) (by omega)

theorem strings_snoc {argv : List (List Byte)} {arg : List Byte} {place : Nat}
    (strings : Strings flat argv place) (copy : Copy flat (place + stringsSize argv) arg) :
    Strings flat (argv ++ [arg]) place := by
  induction argv generalizing place with
  | nil => exact ⟨copy, trivial⟩
  | cons first rest ih =>
    rw [stringsSize_cons, ← Nat.add_assoc] at copy
    exact ⟨strings.1, ih strings.2 copy⟩

theorem pointerAt_congr {place : Nat} (same : ∀ cell, place ≤ cell → cell < place + 8 →
    other cell = flat cell) : pointerAt other place = pointerAt flat place := by
  unfold pointerAt
  rw [word64_congr _ _ fun index inside => same _ (by omega) (by omega)]

theorem Pointers.copies {argv : List (List Byte)} {string array : Nat}
    (pointers : Pointers flat argv string array) (strings : Strings flat argv string) (index : Nat)
    (inside : index < argv.length) :
    pointerAt flat (array + 8 * index) = string + stringsSize (argv.take index) ∧
      Copy flat (string + stringsSize (argv.take index)) argv[index] := by
  induction argv generalizing string array index with
  | nil => cases inside
  | cons arg rest ih =>
    cases index with
    | zero => exact ⟨pointers.1, strings.1⟩
    | succ index =>
      have later := ih pointers.2 strings.2 index (Nat.lt_of_succ_lt_succ inside)
      rw [List.take_succ_cons, stringsSize_cons, ← Nat.add_assoc,
        show array + 8 * (index + 1) = array + 8 + 8 * index by omega]
      exact later

theorem size_take_le {argv : List (List Byte)} (index : Nat) (inside : index < argv.length) :
    stringsSize (argv.take index) + (argv[index].length + 1) ≤ stringsSize argv := by
  induction argv generalizing index with
  | nil => cases inside
  | cons arg rest ih =>
    cases index with
    | zero =>
      rw [List.take_zero, stringsSize_cons, stringsSize_nil]
      exact Nat.le_trans (Nat.le_of_eq (Nat.zero_add _)) (Nat.le_add_right _ _)
    | succ index =>
      have later := ih index (Nat.lt_of_succ_lt_succ inside)
      rw [List.take_succ_cons, stringsSize_cons, stringsSize_cons, List.getElem_cons_succ]
      omega

theorem size_take_succ {argv : List (List Byte)} (index : Nat) (inside : index < argv.length) :
    stringsSize (argv.take (index + 1)) = stringsSize (argv.take index) + (argv[index].length + 1) := by
  rw [List.take_add_one, List.getElem?_eq_getElem inside, stringsSize, List.map_append, List.sum_append]
  rfl

theorem length_le_size (argv : List (List Byte)) : argv.length ≤ stringsSize argv := by
  induction argv with
  | nil => exact Nat.le_refl 0
  | cons arg rest ih =>
    rw [stringsSize_cons, List.length_cons]
    omega

theorem copy_stored (flat : Nat → Byte) (place : Nat) (arg : List Byte) :
    Copy (flatStore flat place (arg.length + 1) (argBuffer arg)) place arg := by
  constructor
  · intro index inside
    rw [flatStore, if_pos (by omega), Nat.add_sub_cancel_left, argBuffer, List.getD_eq_getElem?_getD,
      List.getElem?_append_left inside, List.getElem?_eq_getElem inside]
    rfl
  · rw [flatStore, if_pos (by omega), Nat.add_sub_cancel_left, argBuffer, List.getD_eq_getElem?_getD,
      List.getElem?_append_right (Nat.le_refl _), Nat.sub_self]
    rfl

theorem pointer_stored (flat : Nat → Byte) (place : Nat) (value : BitVec 64) :
    pointerAt (flatStore flat place 8 (bytesOf value)) place = value.toNat := by
  have bytes : word64 (fun index => flatStore flat place 8 (bytesOf value) (place + index)) =
      word64 (bytesOf value) := by
    apply word64_congr
    intro index inside
    rw [flatStore, if_pos (by omega), Nat.add_sub_cancel_left]
  rw [pointerAt, bytes, word64_bytesOf, BitVec.setWidth_eq]

end Congr
end Layout

/-- A state between two of the loader's writes. -/
structure Kept (mem after : RevMem) : Prop where
  coherent : Coherent after
  layout : layout after = layout mem

structure Loaded (mem : RevMem) (argv : List (List Byte)) (after : RevMem) : Prop where
  layout : layout after = layout mem
  count : (word32 fun index => byteAt after (mem.stacktop + 48 + index)) = BitVec.ofNat 32 argv.length
  strings : Strings (byteAt after) argv (mem.memSize - stringsSize argv)
  pointers : Pointers (byteAt after) argv (mem.memSize - stringsSize argv) (mem.stacktop + 60)

/-- WriteCacheLine on a memory without a controller, whose lines have 64 bytes. -/
def storeLine : BitVec 64 → BitVec 64 → Buffer → RevMem → Except MemFault RevMem :=
  writeCacheLine writeLocal 64

section Stores
variable {mem : RevMem} (settled : Settled mem)
  (area : ∀ place, mem.stacktop + 48 ≤ place → place < mem.memSize → mem.isValidVirtAddr place = true)
include settled area

theorem storeLine_ok (place count : Nat) (above : mem.stacktop + 48 ≤ place)
    (below : place + count ≤ mem.memSize) (behind : count = 64 → place + count < mem.memSize)
    (data : Buffer) {before : RevMem} (kept : Kept mem before) :
    ∃ after, storeLine (BitVec.ofNat 64 place) (BitVec.ofNat 64 count) data before = .ok after ∧
      Kept mem after ∧ ∀ cell, byteAt after cell = flatStore (byteAt before) place count data cell := by
  have small := settled.sized.small
  have start : (BitVec.ofNat 64 place).toNat = place := by
    rw [BitVec.toNat_ofNat]
    omega
  have size : (BitVec.ofNat 64 count).toNat = count := by
    rw [BitVec.toNat_ofNat]
    omega
  have stored := writeCacheLine_local 64 (BitVec.ofNat 64 place) (BitVec.ofNat 64 count) (by decide)
    (by omega)
    (by
      rw [start, size]
      intro cell low high
      exact area cell (by omega) (by omega))
    (by
      rintro ⟨line, -⟩
      have whole : count = 64 := by
        rw [← size, line]
        rfl
      rw [start, size]
      exact area _ (by omega) (behind whole))
    settled.sized settled.positive data kept.coherent kept.layout
  obtain ⟨after, stored, coherent, same, bytes⟩ := stored
  rw [start, size] at bytes
  exact ⟨after, stored, ⟨coherent, same⟩, bytes⟩

theorem storeStrings_ok (args : List (List Byte)) (top : Nat)
    (room : mem.stacktop + 48 + stringsSize args ≤ top) (below : top ≤ mem.memSize)
    (last : ∀ arg ∈ args.head?, arg.length = 63 → top < mem.memSize) {before : RevMem}
    (kept : Kept mem before) :
    ∃ after, storeStrings storeLine args (BitVec.ofNat 64 top) before =
        .ok (BitVec.ofNat 64 (top - stringsSize args), after) ∧ Kept mem after ∧
      Strings (byteAt after) args.reverse (top - stringsSize args) ∧
      ∀ cell, cell < top - stringsSize args ∨ top ≤ cell → byteAt after cell = byteAt before cell := by
  induction args generalizing top before with
  | nil => exact ⟨before, rfl, kept, trivial, fun _ _ => rfl⟩
  | cons arg rest ih =>
    have small := settled.sized.small
    rw [stringsSize_cons] at room
    obtain ⟨middle, stored, kept, bytes⟩ := storeLine_ok settled area
      (top - (arg.length + 1)) (arg.length + 1) (by omega) (by omega)
      (fun whole => by
        have inside := last arg rfl (by omega)
        omega)
      (argBuffer arg) kept
    obtain ⟨after, issued, kept, strings, left⟩ := ih (top - (arg.length + 1)) (by omega)
      (by omega) (fun _ _ _ => by omega) kept
    have apart : BitVec.ofNat 64 top - BitVec.ofNat 64 (arg.length + 1) =
        BitVec.ofNat 64 (top - (arg.length + 1)) :=
      BitVec.ofNat_sub_ofNat_of_le _ _ (by omega) (by omega)
    have size : top - stringsSize (arg :: rest) = top - (arg.length + 1) - stringsSize rest := by
      rw [stringsSize_cons]
      omega
    rw [size]
    refine ⟨after, ?_, kept, ?_, ?_⟩
    · rw [storeStrings, apart, stored]
      exact issued
    · rw [List.reverse_cons]
      apply strings_snoc strings
      rw [stringsSize_reverse, Nat.sub_add_cancel (by omega)]
      apply (copy_stored (byteAt before) (top - (arg.length + 1)) arg).congr
      intro cell above _
      rw [left cell (.inr above), bytes]
    · intro cell outside
      rw [left cell (by omega), bytes, flatStore]
      exact if_neg (by omega)

theorem storePointers_ok (args : List (List Byte)) (string array : Nat)
    (above : mem.stacktop + 48 ≤ array) (room : array + 8 * args.length ≤ mem.memSize)
    (inside : string + stringsSize args ≤ mem.memSize) {before : RevMem} (kept : Kept mem before) :
    ∃ after, storePointers storeLine args (BitVec.ofNat 64 string) (BitVec.ofNat 64 array) before =
        .ok after ∧ Kept mem after ∧ Pointers (byteAt after) args string array ∧
      ∀ cell, cell < array ∨ array + 8 * args.length ≤ cell → byteAt after cell = byteAt before cell := by
  induction args generalizing string array before with
  | nil => exact ⟨before, rfl, kept, trivial, fun _ _ => rfl⟩
  | cons arg rest ih =>
    have small := settled.sized.small
    rw [stringsSize_cons] at inside
    rw [List.length_cons] at room ⊢
    obtain ⟨middle, stored, kept, bytes⟩ := storeLine_ok settled area array 8 above (by omega)
      (fun whole => nomatch whole) (bytesOf (BitVec.ofNat 64 string)) kept
    obtain ⟨after, issued, kept, pointers, left⟩ := ih (string + (arg.length + 1)) (array + 8) (by omega)
      (by omega) (by omega) kept
    refine ⟨after, ?_, kept, ⟨?_, pointers⟩, ?_⟩
    · rw [storePointers, show (8 : BitVec 64) = BitVec.ofNat 64 8 from rfl, stored, ← BitVec.ofNat_add,
        ← BitVec.ofNat_add]
      exact issued
    · rw [pointerAt_congr fun cell _ high => (left cell (.inl high)).trans (bytes cell), pointer_stored,
        BitVec.toNat_ofNat, Nat.mod_eq_of_lt (by omega)]
    · intro cell outside
      rw [left cell (by omega), bytes, flatStore]
      exact if_neg (by omega)

variable (exe args : List Byte)
  (fits : mem.stacktop + 60 + 8 * (argvOf exe args).length + stringsSize (argvOf exe args) ≤ mem.memSize)
include fits

omit area in
theorem stringOrder_eq : stringOrder (argvOf exe args) = (argvOf exe args).reverse := by
  have small := settled.sized.small
  have count := length_le_size (argvOf exe args)
  have some : 0 < (argvOf exe args).length := Nat.succ_pos _
  have index : (BitVec.ofNat 32 ((argvOf exe args).length - 1)).toInt =
      (argvOf exe args).length - 1 := by
    rw [BitVec.toInt_ofNat', Int.bmod_eq_of_le (by omega) (by omega)]
    omega
  rw [stringOrder, index, List.take_of_length_le (by omega)]

theorem loadProgramArgs_ok
    (last : ∀ arg ∈ (argvOf exe args).getLast?, arg.length ≠ 63) :
    ∃ after, loadProgramArgs storeLine (BitVec.ofNat 64 mem.memSize) (BitVec.ofNat 64 mem.stacktop) exe args
        mem = .ok (argvOf exe args, after) ∧ Loaded mem (argvOf exe args) after := by
  have order := stringOrder_eq settled exe args fits
  unfold loadProgramArgs
  dsimp only
  rw [order]
  generalize argvOf exe args = argv at fits last
  have whole : stringsSize argv.reverse = stringsSize argv := stringsSize_reverse argv
  have places : BitVec.ofNat 64 mem.stacktop + 48 = BitVec.ofNat 64 (mem.stacktop + 48) ∧
      BitVec.ofNat 64 (mem.stacktop + 48) + 4 = BitVec.ofNat 64 (mem.stacktop + 52) ∧
      BitVec.ofNat 64 (mem.stacktop + 52) + 8 = BitVec.ofNat 64 (mem.stacktop + 60) :=
    ⟨(BitVec.ofNat_add _ _).symm, (BitVec.ofNat_add _ _).symm, (BitVec.ofNat_add _ _).symm⟩
  rw [places.1, places.2.1, places.2.2]
  obtain ⟨first, counted, kept, bytes⟩ := storeLine_ok settled area (mem.stacktop + 48) 4 (Nat.le_refl _)
    (by omega) (fun whole => nomatch whole) (bytesOf (BitVec.ofNat 32 argv.length))
    ⟨settled.coherent, rfl⟩
  obtain ⟨second, copied, kept, strings, aside⟩ := storeStrings_ok settled area argv.reverse mem.memSize
    (by omega) (Nat.le_refl _) (by
      intro arg head long
      rw [List.head?_reverse] at head
      exact absurd long (last arg head)) kept
  rw [whole] at copied strings aside
  rw [List.reverse_reverse] at strings
  obtain ⟨third, based, kept, base⟩ := storeLine_ok settled area (mem.stacktop + 52) 8 (by omega) (by omega)
    (fun whole => nomatch whole) (bytesOf (BitVec.ofNat 64 (mem.stacktop + 60))) kept
  obtain ⟨after, pointed, kept, pointers, left⟩ := storePointers_ok settled area argv
    (mem.memSize - stringsSize argv) (mem.stacktop + 60) (by omega) (by omega) (by omega) kept
  refine ⟨after, ?_, kept.layout, ?_, ?_, pointers⟩
  · rw [show (4 : BitVec 64) = BitVec.ofNat 64 4 from rfl, counted]
    dsimp only
    rw [copied]
    dsimp only
    rw [show (8 : BitVec 64) = BitVec.ofNat 64 8 from rfl, based]
    dsimp only
    rw [pointed]
  · have same : ∀ index < 4, byteAt after (mem.stacktop + 48 + index) =
        bytesOf (BitVec.ofNat 32 argv.length) index := by
      intro index inside
      rw [left _ (by omega), base, flatStore, if_neg (by omega), aside _ (by omega), bytes, flatStore,
        if_pos (by omega), Nat.add_sub_cancel_left]
    rw [← word32_bytesOf (BitVec.ofNat 32 argv.length), word32, word32, same 0 (by decide),
      same 1 (by decide), same 2 (by decide), same 3 (by decide)]
  · apply strings.congr
    intro cell above below
    rw [left _ (by omega), base, flatStore]
    exact if_neg (by omega)

omit area in
theorem Loaded.intact {after : RevMem} (loaded : Loaded mem (argvOf exe args) after)
    (globalPointer startAddr : BitVec 64) :
    Intact (byteAt after) (argvOf exe args) mem.stacktop mem.memSize
      (reset (BitVec.ofNat 64 after.stacktop) globalPointer startAddr (argvOf exe args)) := by
  have small := settled.sized.small
  have count := length_le_size (argvOf exe args)
  have stack : after.stacktop = mem.stacktop := by
    have same := loaded.layout
    simp only [MemRefine.layout, Prod.mk.injEq] at same
    exact same.2.2.2.2.2
  obtain ⟨-, argc, strings, pointers⟩ := loaded
  generalize argvOf exe args = argv at *
  rw [stack]
  have place : ∀ index (inside : index < argv.length),
      pointerAt (byteAt after) (mem.stacktop + 60 + 8 * index) =
        mem.memSize - stringsSize argv + stringsSize (argv.take index) :=
    fun index inside => (pointers.copies strings index inside).1
  have width : (BitVec.ofNat 64 argv.length).toNat = argv.length := by
    rw [BitVec.toNat_ofNat]
    exact Nat.mod_eq_of_lt (by omega)
  have narrow : ((BitVec.ofNat 64 argv.length).setWidth 32).toNat = argv.length := by
    rw [BitVec.toNat_setWidth, width]
    exact Nat.mod_eq_of_lt (by omega)
  have pointer : (BitVec.ofNat 64 mem.stacktop + 60).setWidth 32 =
      (BitVec.ofNat 64 mem.stacktop).setWidth 32 + (60#64).setWidth 32 :=
    BitVec.setWidth_add _ _ (by decide)
  refine ⟨rfl, ?_, ⟨width, narrow⟩, ⟨rfl, pointer⟩, ?_, ?_, ?_, ?_⟩
  · rw [argc, BitVec.toNat_ofNat]
    exact Nat.mod_eq_of_lt (by omega)
  · intro index inside
    rw [place index inside]
    exact (pointers.copies strings index inside).2
  · intro index inside
    rw [place index inside]
    omega
  · intro index inside
    have fits := size_take_le index inside
    rw [place index inside]
    omega
  · intro index next
    rw [place index (by omega), place (index + 1) next, size_take_succ index (by omega)]
    omega

end Stores

section Top
variable {mem : RevMem} (settled : Settled mem)
include settled

-- The end of the memory is not valid, and no page behind it has a frame.
theorem top_unknown : ¬ Known mem mem.memSize := by
  rintro (held | valid)
  · obtain ⟨physAddr, hit⟩ := LruCache.Cache.mem_keys.mp held
    have behind := settled.coherent.cached _ _ hit
    obtain ⟨frame, owner, -⟩ := Option.map_eq_some_iff.mp behind
    exact Nat.lt_irrefl _ (settled.coherent.pages _ _ owner)
  · exact Nat.lt_irrefl _ (settled.sized.bounded _ valid)

theorem storeLocal_top (len : Nat) (data : Buffer) :
    mem.storeLocal mem.memSize len data = .error (.segFault mem.memSize) := by
  have revoked := settled.unseen (revokeFuture_unseen settled.coherent mem.memSize)
  have unknown : ¬ Known (mem.revokeFuture mem.memSize).2 mem.memSize := top_unknown revoked
  rw [RevMem.storeLocal, RevMem.locate, calcPhysAddr_unknown _ unknown]

end Top

section Stores
variable {mem : RevMem} (settled : Settled mem)
  (area : ∀ place, mem.stacktop + 48 ≤ place → place < mem.memSize → mem.isValidVirtAddr place = true)
include settled area

theorem storeLine_top (room : mem.stacktop + 48 + 64 ≤ mem.memSize) (data : Buffer) {before : RevMem}
    (kept : Kept mem before) :
    storeLine (BitVec.ofNat 64 (mem.memSize - 64)) (BitVec.ofNat 64 64) data before =
      .error (.segFault mem.memSize) := by
  have small := settled.sized.small
  have aligned := settled.sized.aligned
  have start : (BitVec.ofNat 64 (mem.memSize - 64)).toNat = mem.memSize - 64 := by
    rw [BitVec.toNat_ofNat]
    omega
  have whole : WholeLine (lineSizeOf 64) (BitVec.ofNat 64 (mem.memSize - 64)) (BitVec.ofNat 64 64) := by
    refine ⟨rfl, BitVec.eq_of_toNat_eq ?_⟩
    change (BitVec.ofNat 64 (mem.memSize - 64)).toNat % 64 = 0
    rw [pageSize] at aligned
    omega
  have next : (BitVec.ofNat 64 (mem.memSize - 64) + BitVec.ofNat 64 64).toNat = mem.memSize := by
    rw [← BitVec.ofNat_add, BitVec.toNat_ofNat]
    omega
  have cached : before.tlbSize ≠ 0 := by
    rw [(layout_fields kept.layout).2]
    exact settled.positive
  have touchable : Touchable before (mem.memSize - 64) 64 :=
    touchable_inside kept.layout (fun place above below => area place above
      (show place < mem.memSize by
        have last : place < mem.stacktop + 48 + (mem.memSize - (mem.stacktop + 48)) := below
        omega)) (by decide) (by omega) (by omega)
  obtain ⟨middle, stored, coherent, same, -⟩ := storeLocal_valid (settled.sized.of_layout kept.layout)
    kept.coherent cached (by decide) touchable (fun index => data (0 + index))
  have size : middle.memSize = mem.memSize := (layout_fields (same.trans kept.layout)).1
  have last : Settled middle := by
    refine ⟨settled.sized.of_layout (same.trans kept.layout), coherent, ?_⟩
    rw [(layout_fields same).2]
    exact cached
  have top := storeLocal_top last 0 fun index => data (64 + index)
  rw [size] at top
  have first : writeLocal (BitVec.ofNat 64 (mem.memSize - 64)) (BitVec.ofNat 64 64)
      (fun index => data ((0 : BitVec 64).toNat + index)) before = .ok middle := by
    rw [writeLocal, start]
    exact stored
  have second : writeLocal (BitVec.ofNat 64 (mem.memSize - 64) + BitVec.ofNat 64 64) 0
      (fun index => data ((BitVec.ofNat 64 64).toNat + index)) middle = .error (.segFault mem.memSize) := by
    rw [writeLocal, next]
    exact top
  rw [storeLine, writeCacheLine, whole_line_writes _ whole, issueWrites]
  dsimp only
  rw [first]
  dsimp only
  rw [issueWrites, second]

variable (exe args : List Byte)
  (fits : mem.stacktop + 60 + 8 * (argvOf exe args).length + stringsSize (argvOf exe args) ≤ mem.memSize)
include fits

theorem loadProgramArgs_top {arg : List Byte} (last : (argvOf exe args).getLast? = some arg)
    (long : arg.length = 63) :
    loadProgramArgs storeLine (BitVec.ofNat 64 mem.memSize) (BitVec.ofNat 64 mem.stacktop) exe args mem =
      .error (.segFault mem.memSize) := by
  have small := settled.sized.small
  have order := stringOrder_eq settled exe args fits
  unfold loadProgramArgs
  dsimp only
  rw [order]
  rw [← stringsSize_reverse] at fits
  rw [← List.head?_reverse] at last
  generalize (argvOf exe args).reverse = reversed at fits last
  cases reversed with
  | nil => cases last
  | cons first rest =>
    obtain rfl : first = arg := Option.some.inj last
    rw [stringsSize_cons, long] at fits
    obtain ⟨middle, counted, kept, -⟩ := storeLine_ok settled area (mem.stacktop + 48) 4 (Nat.le_refl _)
      (by omega) (fun whole => nomatch whole) (bytesOf (BitVec.ofNat 32 (argvOf exe args).length))
      ⟨settled.coherent, rfl⟩
    have place : BitVec.ofNat 64 mem.stacktop + 48 = BitVec.ofNat 64 (mem.stacktop + 48) :=
      (BitVec.ofNat_add _ _).symm
    have start : BitVec.ofNat 64 mem.memSize - BitVec.ofNat 64 64 = BitVec.ofNat 64 (mem.memSize - 64) :=
      BitVec.ofNat_sub_ofNat_of_le _ _ (by decide) (by omega)
    rw [place, show (4 : BitVec 64) = BitVec.ofNat 64 4 from rfl, counted]
    dsimp only
    rw [storeStrings, long, start, storeLine_top settled area (by omega) _ kept]

/-- The arguments are loaded and reach main unless the last of them has 63 characters. -/
theorem program_args_intact_iff (globalPointer startAddr : BitVec 64) :
    (∃ after, loadProgramArgs storeLine (BitVec.ofNat 64 mem.memSize) (BitVec.ofNat 64 mem.stacktop)
        exe args mem = .ok (argvOf exe args, after) ∧
      Intact (byteAt after) (argvOf exe args) mem.stacktop mem.memSize
        (reset (BitVec.ofNat 64 after.stacktop) globalPointer startAddr (argvOf exe args))) ↔
    ((argvOf exe args).getLast (List.cons_ne_nil _ _)).length ≠ 63 := by
  have last := List.getLast?_eq_some_getLast (List.cons_ne_nil exe (splitStr 32 args))
  constructor
  · rintro ⟨after, loaded, -⟩ long
    rw [loadProgramArgs_top settled area exe args fits last long] at loaded
    cases loaded
  · intro other
    obtain ⟨after, issued, loaded⟩ := loadProgramArgs_ok settled area exe args fits (by
      intro arg member
      obtain rfl := Option.some.inj (last.symm.trans member)
      exact other)
    exact ⟨after, issued, loaded.intact settled exe args fits globalPointer startAddr⟩

end Stores

section Program

theorem small_settled : Settled (RevMem.new 2097152 16 1 0) :=
  ⟨sized_stack_only 16, (untouched_new _ _ _ _).coherent, by decide⟩

theorem small_area (place : Nat) (above : (RevMem.new 2097152 16 1 0).stacktop + 48 ≤ place)
    (below : place < (RevMem.new 2097152 16 1 0).memSize) :
    (RevMem.new 2097152 16 1 0).isValidVirtAddr place = true :=
  (valid_stack_only 16 place).mpr ⟨Nat.le_trans (by decide) above, below⟩

theorem three_args : argvOf [97] [98, 32, 99] = [[97], [98], [99]] := by
  rw [argvOf, splitStr_eq]
  rfl

theorem program_args_intact_iff_three :
    ∃ after, loadProgramArgs storeLine 2097152 2096128 [97] [98, 32, 99] (RevMem.new 2097152 16 1 0) =
        .ok (argvOf [97] [98, 32, 99], after) ∧
      Intact (byteAt after) (argvOf [97] [98, 32, 99]) 2096128 2097152
        (reset (BitVec.ofNat 64 after.stacktop) 0 4096 (argvOf [97] [98, 32, 99])) :=
  (program_args_intact_iff small_settled small_area [97] [98, 32, 99] (by rw [three_args]; decide) 0
    4096).mpr (by simp only [three_args]; decide)

-- The name of the program alone, with 63 characters: the strings and the table fit.
theorem long_name_faults :
    2096128 + 60 + 8 * (argvOf (List.replicate 63 97) []).length +
      stringsSize (argvOf (List.replicate 63 97) []) ≤ 2097152 ∧
    loadProgramArgs storeLine 2097152 2096128 (List.replicate 63 97) [] (RevMem.new 2097152 16 1 0) =
      .error (.segFault 2097152) := by
  have argv : argvOf (List.replicate 63 97) [] = [List.replicate 63 97] := by
    rw [argvOf, splitStr_eq]
    rfl
  have fits : 2096128 + 60 + 8 * (argvOf (List.replicate 63 97) []).length +
      stringsSize (argvOf (List.replicate 63 97) []) ≤ 2097152 := by
    rw [argv]
    decide
  refine ⟨fits, ?_⟩
  exact loadProgramArgs_top small_settled small_area _ _ fits (by rw [argv]; rfl)
    (List.length_replicate ..)

end Program
end RevCPU.Loader
