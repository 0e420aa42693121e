import RevCPU.DecodeCompressed
import RevCPU.Reservation
import RevCPU.MemRefine
import RevCPU.RegFile
/-!
LRBase and SCBase of RevMem.cc on local memory, and the table functions lr.w, sc.w, lr.d and sc.d.
The list keeps a pointer to the LR's destination register, and SCBase reads and writes whole 64-bit
words through its pointers, so a register file is an array of 32-bit words here: RV32 in words 0 to
31, RV64 in words 32 to 95, SPF and DPF behind them. The cost of an instruction is left out.
-/
namespace RevCPU.LrSc
open Mem MemRefine Reservation RegFile InstTable Feature Seed DecodeCompressed

abbrev Words := Nat → BitVec 32

structure HartFile where
  words : Words
  rv32PC : BitVec 32
  rv64PC : BitVec 64

structure Machine where
  mem : RevMem
  lrsc : List Entry
  files : Nat → HartFile

section Pointers

/-- `Tmp[index]` for a `uint64_t *Tmp` at the word `base`. -/
def element (words : Words) (base index : Nat) : BitVec 64 :=
  words (base + 2 * index + 1) ++ words (base + 2 * index)

/-- `A |= (Tmp[i] << i)` for `i < count`, in a variable of `w` bits. -/
def gather (w : Nat) (words : Words) (base : Nat) : Nat → BitVec w
  | 0 => 0
  | count + 1 => gather w words base count ||| ((element words base count).setWidth w <<< count)

def bytesAt (words : Words) (base : Nat) : Buffer := fun index =>
  bytesOf (words (base + index / 4)) (index % 4)

/-- `DataMem[i] = data[i]` for `i < count`. -/
def fill (words : Words) (base count : Nat) (data : Buffer) : Words := fun place =>
  word32 fun byte =>
    if base ≤ place ∧ 4 * (place - base) + byte < count then data (4 * (place - base) + byte)
    else bytesOf (words place) byte

def store32 (words : Words) (base : Nat) (value : BitVec 32) : Words :=
  Function.update words base value

def store64 (words : Words) (base : Nat) (value : BitVec 64) : Words :=
  Function.update (Function.update words base (value.setWidth 32)) (base + 1)
    (value.extractLsb' 32 32)

/-- `Tmp[i] = 0x0` for `i < count`. -/
def zeros (words : Words) (base : Nat) : Nat → Words
  | 0 => words
  | count + 1 => store64 (zeros words base count) (base + 2 * count) 0

end Pointers

namespace Machine

def words (machine : Machine) (hart : Nat) : Words := (machine.files hart).words

def setWords (machine : Machine) (hart : Nat) (words : Words) : Machine :=
  { machine with files := Function.update machine.files hart { machine.files hart with words := words } }

def lrBase (machine : Machine) (hart addr len : Nat) (target : Pointer) (aq rl : Nat)
    (hazard : Bool) : Except MemFault (Bool × Bool × Machine) :=
  let words := machine.words target.hart
  match reserve hart addr aq rl target machine.lrsc with
  | (false, _) => .ok (false, hazard, machine.setWords target.hart (store32 words target.word 1))
  | (true, table) =>
    match machine.mem.calcPhysAddr (addr >>> addrShift) addr with
    | .error fault => .error fault
    | .ok (physAddr, mem) =>
      match mem.copyOut physAddr 0 (bytesAt words target.word) len with
      | .error fault => .error fault
      | .ok data =>
        .ok (true, false,
          { machine with mem := mem, lrsc := table }.setWords target.hart
            (fill words target.word len data))

/-- What SCBase asks of a reservation: whether `A & B` is not 0. -/
def agrees (machine : Machine) (len : Nat) (data : Pointer) (entry : Entry) : Bool :=
  if len = 32 then
    gather 32 (machine.words entry.val.hart) entry.val.word len &&&
      gather 32 (machine.words data.hart) data.word len != 0
  else
    gather 64 (machine.words entry.val.hart) entry.val.word len &&&
      gather 64 (machine.words data.hart) data.word len != 0

def holds (machine : Machine) (hart addr : Nat) : Bool :=
  machine.lrsc.any fun entry => decide (entry.hart = hart ∧ entry.addr = addr)

-- Without an entry the failure is a 32-bit store, after a mismatch one of the width compared.
def scBase (machine : Machine) (hart addr len : Nat) (data target : Pointer) (flags : Nat) :
    Except MemFault (Bool × Machine) :=
  let words := machine.words target.hart
  match conditional hart addr (machine.agrees len data) machine.lrsc with
  | (true, table) =>
    match machine.mem.writeMemFlags hart addr len (bytesAt (machine.words data.hart) data.word)
      flags with
    | .error fault => .error fault
    | .ok mem =>
      .ok (true, { machine with mem := mem, lrsc := table }.setWords target.hart
        (zeros words target.word len))
  | (false, _) =>
    .ok (false, machine.setWords target.hart
      (if machine.holds hart addr ∧ len ≠ 32 then store64 words target.word 1
        else store32 words target.word 1))

end Machine

/-- The table functions by the register file and the `sizeof(T)` they use. -/
inductive Form where
  | rv32w | rv64w | rv64d
deriving Repr, DecidableEq

namespace Form

def zero : Form → Nat
  | rv32w => 0
  | rv64w | rv64d => 32

def span : Form → Nat
  | rv32w => 1
  | rv64w | rv64d => 2

def len : Form → Nat
  | rv32w | rv64w => 4
  | rv64d => 8

def cell (form : Form) (reg : BitVec 8) : Nat := form.zero + form.span * reg.toNat

/-- `operator[]` of RevRF, which clears x0 before it hands it out. -/
def index (form : Form) (words : Words) (reg : BitVec 8) : Words :=
  if reg = 0 then
    fun place => if form.zero ≤ place ∧ place < form.zero + form.span then 0 else words place
  else words

def read (form : Form) (words : Words) (reg : BitVec 8) : Nat :=
  if form.span = 1 then (words (form.cell reg)).toNat
  else (words (form.cell reg + 1) ++ words (form.cell reg)).toNat

end Form

/-- `R->RV32_PC += Inst.instSize` or `R->RV64_PC += Inst.instSize`. -/
def HartFile.advance (file : HartFile) (form : Form) (instSize : Nat) : HartFile :=
  if form.span = 1 then { file with rv32PC := file.rv32PC + BitVec.ofNat 32 instSize }
  else { file with rv64PC := file.rv64PC + BitVec.ofNat 64 instSize }

namespace Machine

def advance (machine : Machine) (form : Form) (hart instSize : Nat) : Machine :=
  { machine with
      files := Function.update machine.files hart ((machine.files hart).advance form instSize) }

/-- The arguments of a call are evaluated first: the base address and the pointers. -/
def indexed (machine : Machine) (form : Form) (hart : Nat) (regs : List (BitVec 8)) : Machine :=
  machine.setWords hart (regs.foldl form.index (machine.words hart))

def lr (form : Form) (machine : Machine) (hart : Nat) (inst : RevInst) (hazard : Bool) :
    Except MemFault (Bool × Machine) :=
  let machine := machine.indexed form hart [inst.rs1, inst.rd]
  match machine.lrBase hart (form.read (machine.words hart) inst.rs1) form.len
    ⟨hart, form.cell inst.rd⟩ inst.aq.toNat inst.rl.toNat hazard with
  | .error fault => .error fault
  | .ok (reserved, _, machine) => .ok (reserved, machine.advance form hart inst.instSize)

def sc (form : Form) (machine : Machine) (hart : Nat) (inst : RevInst) (flags : Nat) :
    Except MemFault (Bool × Machine) :=
  let machine := machine.indexed form hart [inst.rs1, inst.rs2, inst.rd]
  match machine.scBase hart (form.read (machine.words hart) inst.rs1) form.len
    ⟨hart, form.cell inst.rs2⟩ ⟨hart, form.cell inst.rd⟩ flags with
  | .error fault => .error fault
  | .ok (stored, machine) => .ok (stored, machine.advance form hart inst.instSize)

def lrw (feature : RevFeature) (machine : Machine) (hart : Nat) (inst : RevInst) (hazard : Bool) :=
  if isRV32 feature then machine.lr .rv32w hart inst hazard else machine.lr .rv64w hart inst hazard

def scw (feature : RevFeature) (machine : Machine) (hart : Nat) (inst : RevInst) :=
  if isRV32 feature then machine.sc .rv32w hart inst F_SEXT32 else machine.sc .rv64w hart inst F_SEXT64

def lrd (machine : Machine) (hart : Nat) (inst : RevInst) (hazard : Bool) :=
  machine.lr .rv64d hart inst hazard

def scd (machine : Machine) (hart : Nat) (inst : RevInst) := machine.sc .rv64d hart inst F_SEXT64

end Machine

/-- What can be seen of a register file: x0 reads as 0. -/
def visible (words : Words) : Words := fun place =>
  if place = 0 ∨ place = 32 ∨ place = 33 then 0 else words place

section Registers
variable {form : Form} {words : Words} {reg : BitVec 8}

theorem index_cleared {place : Nat} (inside : form.zero ≤ place ∧ place < form.zero + form.span) :
    form.index words 0 place = 0 := by
  simp only [Form.index, if_true]
  exact if_pos inside

theorem index_kept {place : Nat} (outside : ¬ (form.zero ≤ place ∧ place < form.zero + form.span)) :
    form.index words 0 place = words place := by
  simp only [Form.index, if_true]
  exact if_neg outside

theorem zero_hidden {place : Nat} (inside : form.zero ≤ place ∧ place < form.zero + form.span) :
    visible words place = 0 := by
  apply if_pos
  cases form <;> simp only [Form.zero, Form.span] at inside <;> omega

-- operator[] is called once for each argument; only a call for x0 changes anything.
theorem foldl_index (regs : List (BitVec 8)) :
    regs.foldl form.index words = if 0 ∈ regs then form.index words 0 else words := by
  have again : ∀ words : Words, form.index (form.index words 0) 0 = form.index words 0 := by
    intro words
    funext place
    by_cases inside : form.zero ≤ place ∧ place < form.zero + form.span
    · rw [index_cleared inside, index_cleared inside]
    · rw [index_kept inside]
  induction regs generalizing words with
  | nil => rfl
  | cons first rest ih =>
    rw [List.foldl_cons, ih]
    by_cases here : first = 0
    · rw [here, again, ite_self, if_pos List.mem_cons_self]
    · rw [show form.index words first = words from if_neg here]
      have same : 0 ∈ rest ↔ 0 ∈ first :: rest := by
        rw [List.mem_cons]
        exact (or_iff_right (Ne.symm here)).symm
      simp only [same]

theorem visible_index (regs : List (BitVec 8)) :
    visible (regs.foldl form.index words) = visible words := by
  rw [foldl_index]
  split
  · funext place
    by_cases inside : form.zero ≤ place ∧ place < form.zero + form.span
    · rw [zero_hidden inside, zero_hidden inside]
    · unfold visible
      rw [index_kept inside]
  · rfl

theorem cell_visible {regs : List (BitVec 8)} (member : reg ∈ regs) (small : reg.toNat < 32)
    {offset : Nat} (inside : offset < form.span) :
    (regs.foldl form.index words) (form.cell reg + offset) =
      visible words (form.cell reg + offset) := by
  rw [foldl_index]
  by_cases zero : reg = 0
  · subst zero
    have within : form.zero ≤ form.cell 0 + offset ∧
        form.cell 0 + offset < form.zero + form.span := by
      have start : form.cell 0 = form.zero := by simp [Form.cell]
      omega
    rw [if_pos member, index_cleared within, zero_hidden within]
  · have positive : 0 < reg.toNat := by
      apply Nat.pos_of_ne_zero
      intro same
      exact zero (BitVec.eq_of_toNat_eq same)
    have shown : visible words (form.cell reg + offset) = words (form.cell reg + offset) := by
      apply if_neg
      cases form <;> simp only [Form.cell, Form.zero, Form.span] at inside ⊢ <;> omega
    have outside : ¬ (form.zero ≤ form.cell reg + offset ∧
        form.cell reg + offset < form.zero + form.span) := by
      cases form <;> simp only [Form.cell, Form.zero, Form.span] at inside ⊢ <;> omega
    rw [shown]
    split
    · exact index_kept outside
    · rfl

theorem read_visible {regs : List (BitVec 8)} (member : reg ∈ regs) (small : reg.toNat < 32) :
    form.read (regs.foldl form.index words) reg = form.read (visible words) reg := by
  have positive : 0 < form.span := by cases form <;> decide
  have low : (regs.foldl form.index words) (form.cell reg) = visible words (form.cell reg) :=
    cell_visible member small positive
  unfold Form.read
  split
  · rw [low]
  · rename_i wide
    have high : (regs.foldl form.index words) (form.cell reg + 1) =
        visible words (form.cell reg + 1) :=
      cell_visible member small (by cases form <;> simp_all [Form.span])
    rw [low, high]

theorem bytesAt_visible {regs : List (BitVec 8)} (member : reg ∈ regs) (small : reg.toNat < 32)
    {index : Nat} (inside : index < form.len) :
    bytesAt (regs.foldl form.index words) (form.cell reg) index =
      bytesAt (visible words) (form.cell reg) index := by
  unfold bytesAt
  rw [cell_visible member small]
  cases form <;> simp only [Form.span, Form.len] at inside ⊢ <;> omega

theorem fill_inside {base len offset : Nat} {data : Buffer} (inside : 4 * offset + 3 < len) :
    fill words base len data (base + offset) = word32 fun byte => data (4 * offset + byte) := by
  have below : base ≤ base + offset := Nat.le_add_right ..
  simp only [fill, word32, below, true_and, Nat.add_sub_cancel_left]
  rw [if_pos (by omega), if_pos (by omega), if_pos (by omega), if_pos (by omega)]

theorem fill_outside {base len place : Nat} {data : Buffer}
    (outside : place < base ∨ len ≤ 4 * (place - base)) :
    fill words base len data place = words place := by
  have same : ∀ byte, ¬ (base ≤ place ∧ 4 * (place - base) + byte < len) := by omega
  simp only [fill, same, if_false]
  exact word32_bytesOf (words place)

theorem zeros_apply (base count place : Nat) :
    zeros words base count place =
      if base ≤ place ∧ place < base + 2 * count then 0 else words place := by
  induction count with
  | zero =>
    rw [if_neg (by omega)]
    rfl
  | succ count ih =>
    simp only [zeros, store64, Function.update_apply, ih]
    split_ifs <;> first | rfl | omega

end Registers

section Machines
variable (machine : Machine) (form : Form) (hart other : Nat)

theorem words_setWords (words : Words) :
    (machine.setWords hart words).words other = if other = hart then words else machine.words other := by
  unfold Machine.words Machine.setWords
  by_cases same : other = hart
  · simp [same]
  · simp [same]

theorem words_advance (instSize : Nat) :
    (machine.advance form hart instSize).words other = machine.words other := by
  unfold Machine.words Machine.advance HartFile.advance
  by_cases same : other = hart
  · subst same
    simp only [Function.update_self]
    split <;> rfl
  · simp [same]

theorem visible_indexed (regs : List (BitVec 8)) :
    visible ((machine.indexed form hart regs).words other) = visible (machine.words other) := by
  rw [Machine.indexed, words_setWords]
  split
  · rename_i same
    rw [same, visible_index]
  · rfl

end Machines

/-- A reservation as LR and SC should see it: the bytes it covers, and whether nobody has written to
them since. -/
structure Held where
  len : Nat
  intact : Bool
deriving Repr, DecidableEq

abbrev Reservations := Nat → Nat → Option Held

namespace Reservations

def set (resv : Reservations) (hart addr : Nat) (held : Option Held) : Reservations :=
  fun other start => if other = hart ∧ start = addr then held else resv other start

def written (resv : Reservations) (addr len : Nat) : Reservations := fun hart start =>
  (resv hart start).map fun held =>
    { held with intact := held.intact &&
        (decide (start + held.len ≤ addr) || decide (addr + len ≤ start)) }

end Reservations

inductive Event where
  | lr (form : Form) (hart : Nat) (inst : RevInst) (hazard : Bool)
  | sc (form : Form) (hart : Nat) (inst : RevInst) (flags : Nat)
  | write (hart addr len : Nat) (data : Buffer)
  -- any other instruction of the hart
  | assign (hart : Nat) (file : HartFile)

def Machine.addrOf (machine : Machine) (form : Form) (hart : Nat) (inst : RevInst) : Nat :=
  form.read (visible (machine.words hart)) inst.rs1

namespace Event

def step (machine : Machine) : Event → Except MemFault (Bool × Machine)
  | lr form hart inst hazard => machine.lr form hart inst hazard
  | sc form hart inst flags => machine.sc form hart inst flags
  | write hart addr len data =>
    (machine.mem.writeMem hart addr len data).map fun mem => (true, { machine with mem := mem })
  | assign hart file =>
    .ok (true, { machine with files := Function.update machine.files hart file })

/-- The reservations after the event: an LR registers one, and an SC that succeeds gives it up and
writes. -/
def record (machine : Machine) (resv : Reservations) (outcome : Bool) : Event → Reservations
  | lr form hart inst _ => resv.set hart (machine.addrOf form hart inst) (some ⟨form.len, true⟩)
  | sc form hart inst _ =>
    if outcome then
      (resv.set hart (machine.addrOf form hart inst) none).written
        (machine.addrOf form hart inst) form.len
    else resv
  | write _ addr len _ => resv.written addr len
  | assign _ _ => resv

end Event

/-- The word of rd that a load of `form.len` bytes leaves, extended by its sign. -/
def loadedWord (form : Form) (bytes : Buffer) (offset : Nat) : BitVec 32 :=
  if 4 * offset < form.len then word32 fun byte => bytes (4 * offset + byte)
  else (word32 bytes).sshiftRight 31

/-- No register but rd of the hart has changed. -/
def Frame (form : Form) (hart : Nat) (rd : BitVec 8) (machine after : Machine) : Prop :=
  ∀ other place,
    ¬ (other = hart ∧ form.cell rd ≤ place ∧ place < form.cell rd + form.span) →
      visible (after.words other) place = visible (machine.words other) place

structure LrMeets (machine after : Machine) (form : Form) (hart addr : Nat) (rd : BitVec 8) :
    Prop where
  loaded : rd ≠ 0 → ∀ offset, offset < form.span →
    after.words hart (form.cell rd + offset) =
      loadedWord form (fun index => byteAt machine.mem (addr + index)) offset
  registered : after.holds hart addr = true
  memory : ∀ vAddr, byteAt after.mem vAddr = byteAt machine.mem vAddr
  others : Frame form hart rd machine after

structure ScMeets (machine : Machine) (resv : Reservations) (outcome : Bool) (after : Machine)
    (form : Form) (hart addr : Nat) (rs2 rd : BitVec 8) : Prop where
  succeeds : outcome = true ↔ ∃ len, resv hart addr = some ⟨len, true⟩
  stored : outcome = true → ∀ vAddr, byteAt after.mem vAddr =
    flatStore (byteAt machine.mem) addr form.len
      (bytesAt (visible (machine.words hart)) (form.cell rs2)) vAddr
  cleared : outcome = true → after.holds hart addr = false ∧
    (rd ≠ 0 → ∀ offset, offset < form.span → after.words hart (form.cell rd + offset) = 0)
  refused : outcome = false → (∀ vAddr, byteAt after.mem vAddr = byteAt machine.mem vAddr) ∧
    (rd ≠ 0 → ∃ offset, offset < form.span ∧ after.words hart (form.cell rd + offset) ≠ 0)
  others : Frame form hart rd machine after

def Meets (machine : Machine) (resv : Reservations) (outcome : Bool) (after : Machine) :
    Event → Prop
  | .lr form hart inst _ =>
    LrMeets machine after form hart (machine.addrOf form hart inst) inst.rd
  | .sc form hart inst _ =>
    ScMeets machine resv outcome after form hart (machine.addrOf form hart inst) inst.rs2 inst.rd
  | .write _ addr len data => after.files = machine.files ∧
    ∀ vAddr, byteAt after.mem vAddr = flatStore (byteAt machine.mem) addr len data vAddr
  | .assign _ _ => after.mem = machine.mem

structure Decoded (inst : RevInst) : Prop where
  rd : inst.rd.toNat < 32
  rs1 : inst.rs1.toNat < 32
  rs2 : inst.rs2.toNat < 32

/-- The events on which the saved pointers and the 64-bit stores do no harm. -/
def Good (machine : Machine) (resv : Reservations) : Event → Prop
  -- nobody holds the address, its bytes lie in one page, and the half of rd that lr.w leaves on
  -- RV64 already has the sign
  | .lr form hart inst _ =>
    let addr := machine.addrOf form hart inst
    Decoded inst ∧ addr ∉ machine.lrsc.map Entry.addr ∧
    machine.mem.isValidVirtAddr addr = true ∧ addr % pageSize + form.len ≤ pageSize ∧
    (form = .rv64w → inst.rd ≠ 0 → machine.words hart (form.cell inst.rd + 1) =
      loadedWord form (fun index => byteAt machine.mem (addr + index)) 1)
  -- the comparison through the saved pointer agrees with the history, and the words stored behind
  -- rd were 0 before
  | .sc form hart inst _ =>
    let addr := machine.addrOf form hart inst
    Decoded inst ∧ ∀ entry ∈ machine.lrsc, entry.hart = hart → entry.addr = addr →
      let agreed := (machine.indexed form hart [inst.rs1, inst.rs2, inst.rd]).agrees form.len
        ⟨hart, form.cell inst.rs2⟩ entry
      (agreed = true ↔ ∃ len, resv hart addr = some ⟨len, true⟩) ∧
      (agreed = true → Touchable machine.mem addr form.len) ∧
      ∀ place, form.cell inst.rd + form.span ≤ place →
        place < form.cell inst.rd + (if agreed then 2 * form.len else 2) →
        visible (machine.words hart) place = 0
  | .write _ addr len _ => len ≤ pageSize ∧ Touchable machine.mem addr len
  | .assign _ _ => True

structure Inv (machine : Machine) (resv : Reservations) : Prop where
  sized : Sized machine.mem
  coherent : Coherent machine.mem
  positive : machine.mem.tlbSize ≠ 0
  distinct : (machine.lrsc.map Entry.addr).Nodup
  held : ∀ hart addr, (resv hart addr).isSome = machine.holds hart addr

section Reservations
variable {table : List Entry} {hart addr : Nat} {same : Entry → Bool}

-- With one entry for each address the first match is the only one.
theorem conditional_iff (distinct : (table.map Entry.addr).Nodup) :
    (conditional hart addr same table).1 = true ↔
      ∃ entry ∈ table, entry.hart = hart ∧ entry.addr = addr ∧ same entry = true := by
  constructor
  · intro accepted
    obtain ⟨front, entry, back, rfl, own, on, agreed, -⟩ := conditional_accepted accepted
    exact ⟨entry, by simp, own, on, agreed⟩
  · rintro ⟨entry, member, own, on, agreed⟩
    induction table with
    | nil => exact absurd member (by simp)
    | cons head rest ih =>
      rw [List.map_cons, List.nodup_cons] at distinct
      unfold conditional
      rcases List.mem_cons.mp member with rfl | later
      · rw [if_pos ⟨own.symm, on.symm⟩, if_pos agreed]
      · have differs : ¬ (hart = head.hart ∧ addr = head.addr) := by
          rintro ⟨-, clash⟩
          apply distinct.1
          rw [← clash, ← on]
          exact List.mem_map_of_mem later
        rw [if_neg differs]
        exact ih distinct.2 later

theorem holds_iff (machine : Machine) :
    machine.holds hart addr = true ↔
      ∃ entry ∈ machine.lrsc, entry.hart = hart ∧ entry.addr = addr := by
  simp [Machine.holds]

-- The entry of a store-conditional that succeeds is the only one on its address.
theorem conditional_table (distinct : (table.map Entry.addr).Nodup)
    (accepted : (conditional hart addr same table).1 = true) :
    ((conditional hart addr same table).2.map Entry.addr).Nodup ∧
      addr ∉ (conditional hart addr same table).2.map Entry.addr ∧
      ∀ entry, entry.addr ≠ addr →
        (entry ∈ (conditional hart addr same table).2 ↔ entry ∈ table) := by
  obtain ⟨front, entry, back, rfl, own, rfl, -, left⟩ := conditional_accepted accepted
  have moved : (front ++ entry :: back).Perm (entry :: (front ++ back)) := List.perm_middle
  have split := List.nodup_cons.mp ((moved.map Entry.addr).nodup_iff.mp distinct)
  rw [left]
  refine ⟨split.2, split.1, fun other differs => ?_⟩
  rw [moved.mem_iff, List.mem_cons]
  have apart : other ≠ entry := by
    rintro rfl
    exact differs rfl
  exact (or_iff_right apart).symm

end Reservations

section Steps
variable {machine : Machine} {resv : Reservations} {form : Form} {hart : Nat} {inst : RevInst}

theorem addrOf_indexed {regs : List (BitVec 8)} (member : inst.rs1 ∈ regs)
    (small : inst.rs1.toNat < 32) :
    form.read ((machine.indexed form hart regs).words hart) inst.rs1 =
      machine.addrOf form hart inst := by
  rw [Machine.indexed, words_setWords, if_pos rfl, read_visible member small]
  rfl

theorem len_span (form : Form) : form.len ≤ 4 * form.span ∧ form.len % 4 = 0 ∧ 4 ≤ form.len ∧
    1 ≤ form.span ∧ form.len ≤ pageSize ∧ form.span ≤ 2 * form.len ∧ form.len ≠ 32 := by
  cases form <;> decide

theorem visible_cell {words : Words} {reg : BitVec 8} (nonzero : reg ≠ 0) (small : reg.toNat < 32)
    {offset : Nat} (inside : offset < form.span) :
    visible words (form.cell reg + offset) = words (form.cell reg + offset) := by
  have positive : 0 < reg.toNat := by
    apply Nat.pos_of_ne_zero
    intro same
    exact nonzero (BitVec.eq_of_toNat_eq same)
  apply if_neg
  cases form <;> simp only [Form.cell, Form.zero, Form.span] at inside ⊢ <;> omega

-- A store outside rd that leaves the visible words as they were.
theorem frame_of_words {after : Machine} {regs : List (BitVec 8)}
    (mine : ∀ place, ¬ (form.cell inst.rd ≤ place ∧ place < form.cell inst.rd + form.span) →
      visible (after.words hart) place = visible ((machine.indexed form hart regs).words hart) place)
    (rest : ∀ other, other ≠ hart → after.words other = (machine.indexed form hart regs).words other) :
    Frame form hart inst.rd machine after := by
  intro other place outside
  rw [← visible_indexed machine form hart other regs]
  by_cases same : other = hart
  · subst same
    exact mine place fun inside => outside ⟨rfl, inside⟩
  · rw [rest other same]

/-- The machine after a load-reserve that is not refused. -/
def reserved (machine : Machine) (form : Form) (hart : Nat) (inst : RevInst) (mem : RevMem)
    (data : Buffer) : Machine :=
  let indexed := machine.indexed form hart [inst.rs1, inst.rd]
  let entry : Entry := ⟨hart, machine.addrOf form hart inst,
    inst.aq.toNat ||| (inst.rl.toNat <<< 1), ⟨hart, form.cell inst.rd⟩⟩
  let recorded : Machine := { indexed with mem := mem, lrsc := machine.lrsc ++ [entry] }
  (recorded.setWords hart (fill (indexed.words hart) (form.cell inst.rd) form.len data)).advance
    form hart inst.instSize

theorem lr_runs (inv : Inv machine resv) {hazard : Bool}
    (good : Good machine resv (.lr form hart inst hazard)) :
    ∃ mem data, machine.lr form hart inst hazard = .ok (true, reserved machine form hart inst mem data) ∧
      Unseen machine.mem mem ∧ ∀ index, index < form.len →
        data index = byteAt machine.mem (machine.addrOf form hart inst + index) := by
  obtain ⟨decoded, fresh, valid, onePage, -⟩ := good
  obtain ⟨physAddr, mem, translated, unseen, behind⟩ :=
    calcPhysAddr_valid inv.sized inv.coherent inv.positive valid
  have addr : form.read ((machine.indexed form hart [inst.rs1, inst.rd]).words hart) inst.rs1 =
      machine.addrOf form hart inst := addrOf_indexed List.mem_cons_self decoded.rs1
  have copied := fun target => copyOut_valid unseen.coherent 0 target
    fun step (inside : step < form.len) => FirstTouch.place_add behind (by omega)
  have clear : ¬ collides hart (machine.addrOf form hart inst) machine.lrsc = true := by
    rwa [collides_iff]
  have table : (machine.indexed form hart [inst.rs1, inst.rd]).lrsc = machine.lrsc := rfl
  have memory : (machine.indexed form hart [inst.rs1, inst.rd]).mem = machine.mem := rfl
  refine ⟨mem, fun index => if 0 ≤ index ∧ index < 0 + form.len then
      byteAt mem (machine.addrOf form hart inst + (index - 0))
      else bytesAt ((machine.indexed form hart [inst.rs1, inst.rd]).words hart)
        (form.cell inst.rd) index, ?_, unseen, fun index inside => ?_⟩
  · simp only [Machine.lr, Machine.lrBase, addr, reserve, table, memory, if_neg clear, page_shift,
      translated, copied]
    rfl
  · dsimp only
    rw [if_pos (by omega), unseen.view, Nat.sub_zero]

theorem words_reserved (mem : RevMem) (data : Buffer) (other : Nat) :
    (reserved machine form hart inst mem data).words other =
      if other = hart then
        fill ((machine.indexed form hart [inst.rs1, inst.rd]).words hart) (form.cell inst.rd)
          form.len data
      else (machine.indexed form hart [inst.rs1, inst.rd]).words other := by
  unfold reserved
  rw [words_advance, words_setWords]
  rfl

theorem lr_meets {hazard : Bool} (good : Good machine resv (.lr form hart inst hazard))
    {mem : RevMem} {data : Buffer} (unseen : Unseen machine.mem mem)
    (bytes : ∀ index, index < form.len →
      data index = byteAt machine.mem (machine.addrOf form hart inst + index)) :
    LrMeets machine (reserved machine form hart inst mem data) form hart
      (machine.addrOf form hart inst) inst.rd := by
  obtain ⟨decoded, -, -, -, upper⟩ := good
  obtain ⟨fits, whole, least, -⟩ := len_span form
  constructor
  · intro nonzero offset inside
    rw [words_reserved, if_pos rfl, loadedWord]
    split
    · rename_i low
      rw [fill_inside (by omega)]
      simp only [word32]
      rw [bytes _ (by omega), bytes _ (by omega), bytes _ (by omega), bytes _ (by omega)]
    · -- only lr.w on RV64 leaves a word of rd
      rename_i high
      have narrow : form = .rv64w ∧ offset = 1 := by
        cases form <;> simp only [Form.span, Form.len] at inside high <;> simp <;> omega
      obtain ⟨rfl, rfl⟩ := narrow
      rw [fill_outside (.inr (by rw [Nat.add_sub_cancel_left]; decide)), Machine.indexed,
        words_setWords, if_pos rfl, cell_visible (by simp) decoded.rd inside,
        visible_cell nonzero decoded.rd inside, upper rfl nonzero]
      rfl
  · rw [holds_iff]
    exact ⟨_, List.mem_append_right _ List.mem_cons_self, rfl, rfl⟩
  · exact unseen.view
  · apply frame_of_words
    · intro place outside
      rw [words_reserved, if_pos rfl]
      unfold visible
      rw [fill_outside (by omega)]
    · intro other differs
      rw [words_reserved, if_neg differs]

theorem lr_inv (inv : Inv machine resv) {hazard : Bool}
    (good : Good machine resv (.lr form hart inst hazard)) {mem : RevMem} {data : Buffer}
    (unseen : Unseen machine.mem mem) :
    Inv (reserved machine form hart inst mem data)
      (resv.set hart (machine.addrOf form hart inst) (some ⟨form.len, true⟩)) := by
  obtain ⟨-, fresh, -⟩ := good
  constructor
  · exact inv.sized.of_layout unseen.layout
  · exact unseen.coherent
  · have same : (reserved machine form hart inst mem data).mem.tlbSize = machine.mem.tlbSize :=
      (layout_fields unseen.layout).2
    rw [same]
    exact inv.positive
  · have table : (reserved machine form hart inst mem data).lrsc.map Entry.addr =
        machine.lrsc.map Entry.addr ++ [machine.addrOf form hart inst] := by
      simp [reserved, Machine.advance, Machine.setWords]
    rw [table, List.nodup_append]
    refine ⟨inv.distinct, by simp, fun old member new last clash => fresh ?_⟩
    rw [← List.mem_singleton.mp last, ← clash]
    exact member
  · intro other start
    have grown : (reserved machine form hart inst mem data).holds other start =
        (machine.holds other start ||
          decide (hart = other ∧ machine.addrOf form hart inst = start)) := by
      simp [reserved, Machine.advance, Machine.setWords, Machine.holds]
    rw [grown, ← inv.held]
    unfold Reservations.set
    by_cases same : other = hart ∧ start = machine.addrOf form hart inst
    · simp [same]
    · rw [if_neg same]
      have differs : ¬ (hart = other ∧ machine.addrOf form hart inst = start) := by
        rintro ⟨rfl, rfl⟩
        exact same ⟨rfl, rfl⟩
      simp [differs]

def verdict (machine : Machine) (form : Form) (hart : Nat) (inst : RevInst) : Bool × List Entry :=
  conditional hart (machine.addrOf form hart inst)
    ((machine.indexed form hart [inst.rs1, inst.rs2, inst.rd]).agrees form.len
      ⟨hart, form.cell inst.rs2⟩) machine.lrsc

/-- The machine after a store-conditional with the given stores. -/
def concluded (machine : Machine) (form : Form) (hart : Nat) (inst : RevInst) (mem : RevMem)
    (table : List Entry) (store : Words → Words) : Machine :=
  let indexed := machine.indexed form hart [inst.rs1, inst.rs2, inst.rd]
  let written : Machine := { indexed with mem := mem, lrsc := table }
  (written.setWords hart (store (indexed.words hart))).advance form hart inst.instSize

theorem words_concluded (mem : RevMem) (table : List Entry) (store : Words → Words) (other : Nat) :
    (concluded machine form hart inst mem table store).words other =
      if other = hart then
        store ((machine.indexed form hart [inst.rs1, inst.rs2, inst.rd]).words hart)
      else (machine.indexed form hart [inst.rs1, inst.rs2, inst.rd]).words other := by
  unfold concluded
  rw [words_advance, words_setWords]
  rfl

theorem sc_accepts (decoded : Decoded inst) {mem : RevMem} (flags : Nat)
    (accepted : (verdict machine form hart inst).1 = true)
    (stored : machine.mem.storeLocal (machine.addrOf form hart inst) form.len
      (bytesAt ((machine.indexed form hart [inst.rs1, inst.rs2, inst.rd]).words hart)
        (form.cell inst.rs2)) = .ok mem) :
    machine.sc form hart inst flags = .ok (true, concluded machine form hart inst mem
      (verdict machine form hart inst).2 fun words => zeros words (form.cell inst.rd) form.len) := by
  have addr : form.read ((machine.indexed form hart [inst.rs1, inst.rs2, inst.rd]).words hart)
      inst.rs1 = machine.addrOf form hart inst := addrOf_indexed List.mem_cons_self decoded.rs1
  have table : (machine.indexed form hart [inst.rs1, inst.rs2, inst.rd]).lrsc = machine.lrsc := rfl
  have memory : (machine.indexed form hart [inst.rs1, inst.rs2, inst.rd]).mem = machine.mem := rfl
  unfold verdict at accepted ⊢
  simp only [Machine.sc, Machine.scBase, addr, table]
  generalize conditional hart _ _ machine.lrsc = outcome at accepted ⊢
  obtain ⟨won, left⟩ := outcome
  simp only at accepted
  subst accepted
  simp only [RevMem.writeMemFlags, memory, stored]
  rfl

theorem sc_refuses (decoded : Decoded inst) (flags : Nat)
    (refused : (verdict machine form hart inst).1 = false) :
    machine.sc form hart inst flags = .ok (false, concluded machine form hart inst machine.mem
      machine.lrsc fun words =>
        if machine.holds hart (machine.addrOf form hart inst) then
          store64 words (form.cell inst.rd) 1
        else store32 words (form.cell inst.rd) 1) := by
  have addr : form.read ((machine.indexed form hart [inst.rs1, inst.rs2, inst.rd]).words hart)
      inst.rs1 = machine.addrOf form hart inst := addrOf_indexed List.mem_cons_self decoded.rs1
  have table : (machine.indexed form hart [inst.rs1, inst.rs2, inst.rd]).lrsc = machine.lrsc := rfl
  have width := (len_span form).2.2.2.2.2.2
  unfold verdict at refused
  simp only [Machine.sc, Machine.scBase, addr, table]
  generalize conditional hart _ _ machine.lrsc = outcome at refused ⊢
  obtain ⟨won, left⟩ := outcome
  simp only at refused
  subst refused
  simp only [width, ne_eq, not_false_eq_true, and_true]
  rfl

-- The failing store changes rd, and beside it at most a word that was 0.
theorem failed_word {words : Words} (held : Bool) (base place : Nat) :
    (if held then store64 words base 1 else store32 words base 1) place =
      if place = base then 1 else if held ∧ place = base + 1 then 0 else words place := by
  cases held with
  | false => simp [store32, Function.update_apply]
  | true =>
    simp only [store64, Function.update_apply, if_true, true_and]
    split_ifs <;> first | rfl | omega

theorem verdict_iff (inv : Inv machine resv) {flags : Nat}
    (good : Good machine resv (.sc form hart inst flags)) :
    (verdict machine form hart inst).1 = true ↔
      ∃ len, resv hart (machine.addrOf form hart inst) = some ⟨len, true⟩ := by
  obtain ⟨-, entries⟩ := good
  rw [verdict, conditional_iff inv.distinct]
  constructor
  · rintro ⟨entry, member, own, on, agreed⟩
    exact (entries entry member own on).1.mp agreed
  · rintro ⟨len, intact⟩
    have held : machine.holds hart (machine.addrOf form hart inst) = true := by
      rw [← inv.held, intact]
      rfl
    obtain ⟨entry, member, own, on⟩ := (holds_iff machine).mp held
    exact ⟨entry, member, own, on, (entries entry member own on).1.mpr ⟨len, intact⟩⟩

theorem accepted_inv (inv : Inv machine resv) (accepted : (verdict machine form hart inst).1 = true)
    {mem : RevMem} (coherent : Coherent mem) (same : layout mem = layout machine.mem)
    (store : Words → Words) :
    Inv (concluded machine form hart inst mem (verdict machine form hart inst).2 store)
        ((resv.set hart (machine.addrOf form hart inst) none).written
          (machine.addrOf form hart inst) form.len) ∧
      (concluded machine form hart inst mem (verdict machine form hart inst).2 store).holds hart
        (machine.addrOf form hart inst) = false := by
  obtain ⟨distinct, gone, others⟩ := conditional_table inv.distinct accepted
  have cleared : ∀ other, (concluded machine form hart inst mem (verdict machine form hart inst).2
      store).holds other (machine.addrOf form hart inst) = false := by
    intro other
    rw [Bool.eq_false_iff, ne_eq, holds_iff]
    rintro ⟨entry, member, -, on⟩
    exact gone (List.mem_map.mpr ⟨entry, member, on⟩)
  refine ⟨⟨inv.sized.of_layout same, coherent, ?_, distinct, fun other start => ?_⟩, cleared hart⟩
  · have size : mem.tlbSize = machine.mem.tlbSize := (layout_fields same).2
    change mem.tlbSize ≠ 0
    rw [size]
    exact inv.positive
  · rw [Reservations.written, Option.isSome_map, Reservations.set]
    by_cases on : start = machine.addrOf form hart inst
    · subst on
      rw [cleared other]
      split
      · rfl
      · -- the address had one holder only
        rename_i foreign
        rw [inv.held, Bool.eq_false_iff, ne_eq, holds_iff]
        rintro ⟨entry, member, own, on⟩
        obtain ⟨winner, listed, mine, here, -⟩ := (conditional_iff inv.distinct).mp accepted
        have one := List.inj_on_of_nodup_map inv.distinct member listed (on.trans here.symm)
        exact foreign ⟨by rw [← own, one, mine], rfl⟩
    · rw [if_neg fun both => on both.2, inv.held, Bool.eq_iff_iff, holds_iff, holds_iff]
      constructor
      · rintro ⟨entry, member, own, there⟩
        exact ⟨entry, (others entry (there ▸ on)).mpr member, own, there⟩
      · rintro ⟨entry, member, own, there⟩
        exact ⟨entry, (others entry (there ▸ on)).mp member, own, there⟩

theorem accepted_meets (inv : Inv machine resv) {flags : Nat}
    (good : Good machine resv (.sc form hart inst flags))
    (accepted : (verdict machine form hart inst).1 = true) :
    ∃ after, machine.sc form hart inst flags = .ok (true, after) ∧
      ScMeets machine resv true after form hart (machine.addrOf form hart inst) inst.rs2 inst.rd ∧
      Inv after ((resv.set hart (machine.addrOf form hart inst) none).written
        (machine.addrOf form hart inst) form.len) := by
  have intact := (verdict_iff inv good).mp accepted
  obtain ⟨decoded, entries⟩ := good
  obtain ⟨-, -, -, positive, short, room, -⟩ := len_span form
  obtain ⟨entry, member, own, on, agreed⟩ := (conditional_iff inv.distinct).mp accepted
  obtain ⟨-, touchable, blank⟩ := entries entry member own on
  rw [if_pos agreed] at blank
  obtain ⟨mem, stored, coherent, same, view⟩ := storeLocal_valid inv.sized inv.coherent inv.positive
    short (touchable agreed)
    (bytesAt ((machine.indexed form hart [inst.rs1, inst.rs2, inst.rd]).words hart)
      (form.cell inst.rs2))
  obtain ⟨kept, cleared⟩ := accepted_inv inv accepted coherent same
    fun words => zeros words (form.cell inst.rd) form.len
  refine ⟨_, sc_accepts decoded flags accepted stored, ?_, kept⟩
  constructor
  · exact iff_of_true rfl intact
  · intro _ vAddr
    refine (view vAddr).trans ?_
    unfold flatStore
    split
    · rename_i inside
      rw [Machine.indexed, words_setWords, if_pos rfl]
      exact bytesAt_visible (by simp) decoded.rs2 (by omega)
    · rfl
  · intro _
    refine ⟨cleared, fun _ offset inside => ?_⟩
    rw [words_concluded, if_pos rfl, zeros_apply, if_pos (by omega)]
  · exact fun impossible => absurd impossible (by simp)
  · apply frame_of_words
    · intro place outside
      rw [words_concluded, if_pos rfl]
      by_cases written : form.cell inst.rd ≤ place ∧ place < form.cell inst.rd + 2 * form.len
      · rw [visible_indexed, blank place (by omega) written.2]
        unfold visible
        rw [zeros_apply, if_pos written, ite_self]
      · unfold visible
        rw [zeros_apply, if_neg written]
    · intro other differs
      rw [words_concluded, if_neg differs]

theorem refused_meets (inv : Inv machine resv) {flags : Nat}
    (good : Good machine resv (.sc form hart inst flags))
    (refused : (verdict machine form hart inst).1 = false) :
    ∃ after, machine.sc form hart inst flags = .ok (false, after) ∧
      ScMeets machine resv false after form hart (machine.addrOf form hart inst) inst.rs2 inst.rd ∧
      Inv after resv := by
  have broken := (verdict_iff inv good).not.mp (by simp [refused])
  obtain ⟨decoded, entries⟩ := good
  obtain ⟨-, -, -, positive, -⟩ := len_span form
  -- a held reservation did not compare, so one word behind the low word of rd is cleared
  have blank : machine.holds hart (machine.addrOf form hart inst) = true →
      ∀ place, form.cell inst.rd + form.span ≤ place → place < form.cell inst.rd + 2 →
        visible (machine.words hart) place = 0 := by
    intro held
    obtain ⟨entry, member, own, on⟩ := (holds_iff machine).mp held
    obtain ⟨agree, -, blank⟩ := entries entry member own on
    rwa [if_neg (agree.not.mpr broken)] at blank
  refine ⟨_, sc_refuses decoded flags refused, ?_, ?_⟩
  · constructor
    · exact iff_of_false (by simp) broken
    · exact fun impossible => absurd impossible (by simp)
    · exact fun impossible => absurd impossible (by simp)
    · intro _
      refine ⟨fun _ => rfl, fun _ => ⟨0, positive, ?_⟩⟩
      rw [words_concluded, if_pos rfl, failed_word, if_pos (by omega)]
      decide
    · apply frame_of_words
      · intro place outside
        have away : place ≠ form.cell inst.rd := by omega
        rw [words_concluded, if_pos rfl, visible_indexed]
        by_cases beside : machine.holds hart (machine.addrOf form hart inst) = true ∧
            place = form.cell inst.rd + 1
        · rw [blank beside.1 place (by omega) (by omega)]
          unfold visible
          rw [failed_word, if_neg away, if_pos beside, ite_self]
        · rw [← visible_indexed machine form hart hart [inst.rs1, inst.rs2, inst.rd]]
          unfold visible
          rw [failed_word, if_neg away, if_neg beside]
      · intro other differs
        rw [words_concluded, if_neg differs]
  · exact ⟨inv.sized, inv.coherent, inv.positive, inv.distinct, inv.held⟩

theorem written_held {addr len hart start : Nat} :
    (resv.written addr len hart start).isSome = (resv hart start).isSome := by
  rw [Reservations.written, Option.isSome_map]

theorem write_meets (inv : Inv machine resv) {addr len : Nat} {data : Buffer}
    (good : Good machine resv (.write hart addr len data)) :
    ∃ after, (Event.write hart addr len data).step machine = .ok (true, after) ∧
      Meets machine resv true after (.write hart addr len data) ∧
      Inv after (resv.written addr len) := by
  obtain ⟨mem, stored, coherent, same, view⟩ :=
    storeLocal_valid inv.sized inv.coherent inv.positive good.1 good.2 data
  refine ⟨{ machine with mem := mem }, ?_, ⟨rfl, view⟩, ?_⟩
  · simp only [Event.step, RevMem.writeMem, stored, Except.map]
  · refine ⟨inv.sized.of_layout same, coherent, ?_, inv.distinct, fun other start => ?_⟩
    · have size : mem.tlbSize = machine.mem.tlbSize := (layout_fields same).2
      change mem.tlbSize ≠ 0
      rw [size]
      exact inv.positive
    · rw [written_held]
      exact inv.held other start

theorem step_meets (inv : Inv machine resv) {event : Event} (good : Good machine resv event) :
    ∃ outcome after, event.step machine = .ok (outcome, after) ∧
      Meets machine resv outcome after event ∧
      Inv after (event.record machine resv outcome) := by
  cases event with
  | lr form hart inst hazard =>
    obtain ⟨mem, data, ran, unseen, bytes⟩ := lr_runs inv good
    exact ⟨true, _, ran, lr_meets good unseen bytes, lr_inv inv good unseen⟩
  | sc form hart inst flags =>
    cases outcome : (verdict machine form hart inst).1 with
    | true =>
      obtain ⟨after, ran, meets, kept⟩ := accepted_meets inv good outcome
      exact ⟨true, after, ran, meets, kept⟩
    | false =>
      obtain ⟨after, ran, meets, kept⟩ := refused_meets inv good outcome
      exact ⟨false, after, ran, meets, kept⟩
  | write hart addr len data =>
    obtain ⟨after, ran, meets, kept⟩ := write_meets inv good
    exact ⟨true, after, ran, meets, kept⟩
  | assign hart file =>
    exact ⟨true, _, rfl, rfl, inv.sized, inv.coherent, inv.positive, inv.distinct, inv.held⟩

end Steps

/-- The machines a run can reach, each with the reservations its history gives. -/
inductive Reached : Machine → Reservations → Prop
  | start {machine : Machine} (untouched : Untouched machine.mem) (sized : Sized machine.mem)
    (positive : machine.mem.tlbSize ≠ 0) (vacant : machine.lrsc = []) :
    Reached machine fun _ _ => none
  | event {machine after : Machine} {resv : Reservations} {outcome : Bool}
    (before : Reached machine resv) (event : Event) (good : Good machine resv event)
    (stepped : event.step machine = .ok (outcome, after)) :
    Reached after (event.record machine resv outcome)

theorem reached_inv {machine : Machine} {resv : Reservations} (reached : Reached machine resv) :
    Inv machine resv := by
  induction reached with
  | start untouched sized positive vacant =>
    exact ⟨sized, untouched.coherent, positive, by simp [vacant], by simp [Machine.holds, vacant]⟩
  | event _ event good stepped ih =>
    obtain ⟨outcome, after, ran, -, kept⟩ := step_meets ih good
    rw [stepped] at ran
    cases ran
    exact kept

theorem lr_sc_meets {machine : Machine} {resv : Reservations} (reached : Reached machine resv)
    {event : Event} (good : Good machine resv event) :
    ∃ outcome after, event.step machine = .ok (outcome, after) ∧
      Meets machine resv outcome after event := by
  obtain ⟨outcome, after, ran, meets, -⟩ := step_meets (reached_inv reached) good
  exact ⟨outcome, after, ran, meets⟩

/-- Zeroed memory and one register file: x10 holds a stack address, x5 is 2, and the word of f0 is
given. -/
def machineWith (float : BitVec 32) : Machine where
  mem := RevMem.new 2097152 16 1 0
  lrsc := []
  files := fun _ =>
    { words := fun place =>
        if place = 52 then 1310720 else if place = 42 then 2 else if place = 96 then float else 0
      rv32PC := 0
      rv64PC := 0 }

def lrInst (rd : BitVec 8) : RevInst :=
  { (default : RevInst) with opcode := 0x2f, funct3 := 2, funct7 := 2, rd := rd, rs1 := 10, instSize := 4 }

/-- What sc.w x12,x5,(x10) decodes to. -/
def scInst : RevInst :=
  { (default : RevInst) with
      opcode := 0x2f, funct3 := 2, funct7 := 3, rd := 12, rs1 := 10, rs2 := 5, instSize := 4 }

def atomicFeature : RevFeature := { features := 0xa, xlen := 64, minCost := 1, maxCost := 1 }

/-- The core decodes a word to an instruction. -/
def Decodes (word : BitVec 32) (inst : RevInst) : Prop :=
  (decodeInst atomicFeature (seedInstTable atomicFeature) none none default word).toOption.map
    (fun decoded => decoded.inst) = some inst

instance (word : BitVec 32) (inst : RevInst) : Decidable (Decodes word inst) :=
  inferInstanceAs (Decidable (_ = _))

theorem machineWith_reached (float : BitVec 32) :
    Reached (machineWith float) fun _ _ => none :=
  .start (untouched_new ..) (sized_stack_only 16) (show 16 ≠ 0 by decide) rfl

theorem machineWith_lr (float : BitVec 32) (resv : Reservations) {rd : BitVec 8}
    (small : rd.toNat < 32)
    (upper : (machineWith float).words 0 (Form.rv64w.cell rd + 1) = 0) :
    (machineWith float).addrOf .rv64w 0 (lrInst rd) = 1310720 ∧
      Good (machineWith float) resv (.lr .rv64w 0 (lrInst rd) false) := by
  have addr : (machineWith float).addrOf .rv64w 0 (lrInst rd) = 1310720 := by
    simp [Machine.addrOf, Form.read, Form.cell, Form.zero, Form.span, visible, Machine.words,
      machineWith, lrInst]
  refine ⟨addr, ⟨small, show 10 < 32 by decide, show 0 < 32 by decide⟩, ?_, ?_, ?_, fun _ _ => ?_⟩
  · simp [machineWith]
  · rw [addr]
    exact (valid_stack_only 16 1310720).mpr (by decide)
  · rw [addr]
    decide
  · rw [addr]
    have blank : byteAt (machineWith float).mem = fun _ => 0 :=
      funext (untouched_new 2097152 16 1 0).byteAt
    rw [blank]
    exact upper.trans (by decide)

theorem record_lr {machine : Machine} {rd : BitVec 8}
    (addr : machine.addrOf .rv64w 0 (lrInst rd) = 1310720) :
    (Event.lr .rv64w 0 (lrInst rd) false).record machine (fun _ _ => none) true 0 1310720 =
      some ⟨4, true⟩ := by
  simp only [Event.record, Reservations.set, addr, and_self, if_true]
  rfl

/-- lr.w into x31, then sc.w of x5 into x12. The words behind x31 are the float registers. -/
theorem lr_sc_meets_pair : Decodes 0x10052FAF (lrInst 31) ∧ Decodes 0x1855262F scInst ∧
    ∃ machine resv outcome after, Reached machine resv ∧
      resv 0 1310720 = some ⟨4, true⟩ ∧
      (Event.sc .rv64w 0 scInst 0).step machine = .ok (outcome, after) ∧
      Meets machine resv outcome after (.sc .rv64w 0 scInst 0) := by
  refine ⟨by decide, by decide, ?_⟩
  obtain ⟨addr, good⟩ :=
    machineWith_lr 1 (fun _ _ => none) (show (31 : BitVec 8).toNat < 32 by decide) rfl
  have seen : ((Event.lr .rv64w 0 (lrInst 31) false).step (machineWith 1)).toOption.map
      (fun result => (result.1, result.2.lrsc, result.2.addrOf .rv64w 0 scInst,
        (result.2.indexed .rv64w 0 [scInst.rs1, scInst.rs2, scInst.rd]).agrees Form.rv64w.len
          ⟨0, Form.rv64w.cell scInst.rs2⟩ ⟨0, 1310720, 0, ⟨0, 94⟩⟩,
        result.2.mem.isValidVirtAddr 1310720,
        (List.range 6).all fun offset => decide (result.2.words 0 (58 + offset) = 0))) =
      some (true, [⟨0, 1310720, 0, ⟨0, 94⟩⟩], 1310720, true, true, true) := by decide
  obtain ⟨⟨outcome, machine⟩, ran, facts⟩ := ok_of_seen seen
  simp only [Prod.mk.injEq] at facts
  obtain ⟨rfl, table, target, agreed, valid, blank⟩ := facts
  have reached := (machineWith_reached 1).event _ good ran
  have intact := record_lr addr
  generalize (Event.lr .rv64w 0 (lrInst 31) false).record (machineWith 1) (fun _ _ => none) true =
    resv at reached intact
  have ready : Good machine resv (.sc .rv64w 0 scInst 0) := by
    refine ⟨⟨by decide, by decide, by decide⟩, fun entry member _ _ => ?_⟩
    rw [table, List.mem_singleton] at member
    subst member
    refine ⟨iff_of_true agreed ⟨4, by rw [target]; exact intact⟩, fun _ => ?_, ?_⟩
    · rw [target]
      refine ⟨valid, fun crossing => absurd crossing ?_⟩
      decide
    · intro place low high
      rw [if_pos agreed] at high
      have cell : Form.rv64w.cell scInst.rd = 56 := rfl
      simp only [cell, Form.span, Form.len] at low high
      have zero := List.all_eq_true.mp blank (place - 58) (by simp; omega)
      rw [show 58 + (place - 58) = place by omega] at zero
      unfold visible
      rw [of_decide_eq_true zero, ite_self]
  obtain ⟨outcome, after, stepped, meets⟩ := lr_sc_meets reached ready
  exact ⟨machine, _, outcome, after, reached, intact, stepped, meets⟩

-- Nothing is written between the two, but the words behind x11 are all 0.
theorem sc_fails_unwritten : Decodes 0x100525AF (lrInst 11) ∧ Decodes 0x1855262F scInst ∧
    ∃ machine resv after, Reached machine resv ∧ resv 0 1310720 = some ⟨4, true⟩ ∧
      machine.addrOf .rv64w 0 scInst = 1310720 ∧
      (Event.sc .rv64w 0 scInst 0).step machine = .ok (false, after) ∧
      ¬ Meets machine resv false after (.sc .rv64w 0 scInst 0) := by
  refine ⟨by decide, by decide, ?_⟩
  obtain ⟨addr, good⟩ :=
    machineWith_lr 0 (fun _ _ => none) (show (11 : BitVec 8).toNat < 32 by decide) rfl
  have seen : ((Event.lr .rv64w 0 (lrInst 11) false).step (machineWith 0)).toOption.map
      (fun result => (result.1, result.2.addrOf .rv64w 0 scInst,
        ((Event.sc .rv64w 0 scInst 0).step result.2).toOption.map Prod.fst)) =
      some (true, 1310720, some false) := by decide
  obtain ⟨⟨outcome, machine⟩, ran, facts⟩ := ok_of_seen seen
  simp only [Prod.mk.injEq] at facts
  obtain ⟨rfl, target, failed⟩ := facts
  obtain ⟨⟨outcome, after⟩, stepped, rfl⟩ := ok_of_seen failed
  have intact := record_lr addr
  refine ⟨machine, _, after, (machineWith_reached 0).event _ good ran, intact, target, stepped, ?_⟩
  intro meets
  have promised := meets.succeeds.mpr ⟨4, by rw [target]; exact intact⟩
  exact absurd promised (by simp)

end RevCPU.LrSc
