import RevCPU.CrossPage
/-!
WriteCacheLine of RevLoader.cc. The first write reaches up to the end of its line, and the loop behind it
runs once whether or not anything is left: one whole line is followed by a write of no bytes at its end.
-/
namespace RevCPU.Loader
open Mem MemRefine MemCtrl

/-- The line size in use, of which the addresses are taken modulo. -/
abbrev LineSize := { size : BitVec 64 // size ≠ 0 }

-- The default is 64 bytes.
def lineSizeOf (configured : BitVec 32) : LineSize :=
  if zero : configured = 0 then ⟨64, by decide⟩
  else ⟨configured.setWidth 64, fun none => zero (by
    have same := congrArg (BitVec.setWidth 32) none
    rwa [BitVec.setWidth_setWidth_of_le _ (by decide), BitVec.setWidth_eq] at same)⟩

/-- A WriteMem; `source` is where in the data its bytes start. -/
structure LineWrite where
  addr : BitVec 64
  len : BitVec 64
  source : BitVec 64
deriving DecidableEq

def LineWrite.Holds (write : LineWrite) (place : Nat) : Prop :=
  write.addr.toNat ≤ place ∧ place < write.addr.toNat + write.len.toNat

instance {write : LineWrite} {place : Nat} : Decidable (write.Holds place) :=
  inferInstanceAs (Decidable (_ ∧ _))

section Lines
variable (line : LineSize)

theorem toNat_pred {addr : BitVec 64} (unaligned : ¬ addr % line.val = 0) :
    (addr - 1).toNat < addr.toNat ∧ (addr - 1).toNat = addr.toNat - 1 := by
  have positive : addr ≠ 0 := by
    intro zero
    rw [zero] at unaligned
    exact unaligned (BitVec.zero_umod)
  bv_omega

def lineBase (addr : BitVec 64) : BitVec 64 :=
  if unaligned : ¬ addr % line.val = 0 then lineBase (addr - 1) else addr
termination_by addr.toNat
decreasing_by exact (toNat_pred line unaligned).1

/-- The size of the next write behind the first one. -/
def restSize (len total : BitVec 64) : BitVec 64 :=
  if line.val < len - total then line.val else len - total

theorem left_shrinks {len total : BitVec 64} (more : total + restSize line len total < len) :
    (len - (total + restSize line len total)).toNat < (len - total).toNat := by
  have positive : line.val ≠ 0 := line.property
  have chosen : restSize line len total = if line.val < len - total then line.val else len - total := rfl
  split at chosen
  · bv_omega
  · bv_omega

/-- The loop over the remaining lines; its body runs at least once. -/
def restLines (len addr source total : BitVec 64) : List LineWrite :=
  ⟨addr, restSize line len total, source⟩ ::
    if _more : total + restSize line len total < len then
      restLines len (addr + restSize line len total) (source + restSize line len total)
        (total + restSize line len total)
    else []
termination_by (len - total).toNat
decreasing_by exact left_shrinks line _more

def lineWrites (addr len : BitVec 64) : List LineWrite :=
  if len = 0 then []
  else if len < line.val then [⟨addr, len, 0⟩]
  else
    let size := lineBase line addr + line.val - addr
    ⟨addr, size, 0⟩ :: restLines line len (addr + size) size size

end Lines

section Issue
variable {σ ε : Type} (writeMem : BitVec 64 → BitVec 64 → Buffer → σ → Except ε σ)

def issueWrites (data : Buffer) : List LineWrite → σ → Except ε σ
  | [], mem => .ok mem
  | write :: rest, mem =>
    match writeMem write.addr write.len (fun index => data (write.source.toNat + index)) mem with
    | .error fault => .error fault
    | .ok mem => issueWrites data rest mem

def writeCacheLine (configured : BitVec 32) (addr len : BitVec 64) (data : Buffer) (mem : σ) :
    Except ε σ :=
  issueWrites writeMem data (lineWrites (lineSizeOf configured) addr len) mem

end Issue

/-- The writes have bytes, hold each address of the range once and none outside it, and take the bytes that
belong there of data for `start`. -/
structure Exactly (start addr len : Nat) (writes : List LineWrite) : Prop where
  nonempty : ∀ write ∈ writes, 0 < write.len.toNat
  inside : ∀ write ∈ writes, addr ≤ write.addr.toNat ∧ write.addr.toNat + write.len.toNat ≤ addr + len
  once : ∀ place, addr ≤ place → place < addr + len →
    writes.countP (fun write => decide (write.Holds place)) = 1
  source : ∀ write ∈ writes, write.addr.toNat = start + write.source.toNat

section Exactly
variable {start addr len : Nat} {writes : List LineWrite}

theorem exactly_nil (start addr : Nat) : Exactly start addr 0 [] := by
  constructor
  · simp
  · simp
  · intro place above below
    omega
  · simp

theorem Exactly.cons (write : LineWrite) (rest : Exactly start (addr + write.len.toNat) len writes)
    (nonempty : 0 < write.len.toNat) (place : write.addr.toNat = addr)
    (source : addr = start + write.source.toNat) :
    Exactly start addr (write.len.toNat + len) (write :: writes) := by
  constructor
  · exact List.forall_mem_cons.mpr ⟨nonempty, rest.nonempty⟩
  · rw [List.forall_mem_cons]
    constructor
    · omega
    · intro other member
      have inside := rest.inside other member
      omega
  · intro cell above below
    rw [List.countP_cons]
    by_cases first : cell < addr + write.len.toNat
    · have none : writes.countP (fun other => decide (other.Holds cell)) = 0 := by
        rw [List.countP_eq_zero]
        intro other member
        have inside := (rest.inside other member).1
        rw [decide_eq_true_eq, LineWrite.Holds]
        omega
      have held : write.Holds cell := by
        rw [LineWrite.Holds, place]
        exact ⟨above, first⟩
      rw [none, if_pos (decide_eq_true held)]
    · rw [rest.once cell (by omega) (by omega), if_neg]
      rw [decide_eq_true_eq, LineWrite.Holds]
      omega
  · exact List.forall_mem_cons.mpr ⟨place.trans source, rest.source⟩

theorem Exactly.holds (exact : Exactly start addr len writes) (place : Nat) :
    (∃ write ∈ writes, write.Holds place) ↔ addr ≤ place ∧ place < addr + len := by
  constructor
  · rintro ⟨write, member, above, below⟩
    have inside := exact.inside write member
    exact ⟨Nat.le_trans inside.1 above, Nat.lt_of_lt_of_le below inside.2⟩
  · rintro ⟨above, below⟩
    have held : 0 < writes.countP fun write => decide (write.Holds place) := by
      rw [exact.once place above below]
      exact Nat.one_pos
    obtain ⟨write, member, holds⟩ := List.countP_pos_iff.mp held
    exact ⟨write, member, of_decide_eq_true holds⟩

end Exactly

section Cover
variable (line : LineSize)

theorem lineBase_toNat (addr : BitVec 64) :
    (lineBase line addr).toNat = addr.toNat - addr.toNat % line.val.toNat := by
  induction addr using lineBase.induct line with
  | case1 addr unaligned ih =>
    have before := (toNat_pred line unaligned).2
    have part : addr.toNat % line.val.toNat ≠ 0 := fun aligned =>
      unaligned (BitVec.eq_of_toNat_eq aligned)
    have parts := Nat.div_add_mod addr.toNat line.val.toNat
    have small := Nat.mod_lt addr.toNat (show 0 < line.val.toNat from
      Nat.pos_of_ne_zero fun zero => line.property (BitVec.eq_of_toNat_eq zero))
    have same : (addr.toNat - 1) % line.val.toNat = addr.toNat % line.val.toNat - 1 := by
      have shape : addr.toNat - 1 =
          line.val.toNat * (addr.toNat / line.val.toNat) + (addr.toNat % line.val.toNat - 1) := by omega
      rw [shape, Nat.mul_add_mod, Nat.mod_eq_of_lt (by omega)]
    rw [lineBase, dif_pos unaligned, ih, before, same]
    omega
  | case2 addr aligned =>
    have zero : addr.toNat % line.val.toNat = 0 := congrArg BitVec.toNat (not_not.mp aligned)
    rw [lineBase, dif_neg aligned, zero]
    rfl

theorem firstSize_toNat (addr : BitVec 64) : (lineBase line addr + line.val - addr).toNat =
    line.val.toNat - addr.toNat % line.val.toNat := by
  have base := lineBase_toNat line addr
  have small := Nat.mod_lt addr.toNat (show 0 < line.val.toNat from
    Nat.pos_of_ne_zero fun zero => line.property (BitVec.eq_of_toNat_eq zero))
  have part := Nat.mod_le addr.toNat line.val.toNat
  generalize addr.toNat % line.val.toNat = rest at base small part
  bv_omega

variable {start : Nat} {len : BitVec 64}

theorem restSize_bounds {total : BitVec 64} (left : total.toNat < len.toNat) :
    0 < (restSize line len total).toNat ∧
      (total + restSize line len total).toNat = total.toNat + (restSize line len total).toNat ∧
      total.toNat + (restSize line len total).toNat ≤ len.toNat ∧
      (¬ total + restSize line len total < len →
        (restSize line len total).toNat = len.toNat - total.toNat) := by
  have positive : 0 < line.val.toNat :=
    Nat.pos_of_ne_zero fun zero => line.property (BitVec.eq_of_toNat_eq zero)
  have chosen : restSize line len total = if line.val < len - total then line.val else len - total := rfl
  generalize restSize line len total = size at chosen ⊢
  split at chosen
  · bv_omega
  · bv_omega

theorem restLines_exactly (room : start + len.toNat < 2 ^ 64) (addr source total : BitVec 64)
    (place : addr.toNat = start + total.toNat) (offset : total = source) (left : total.toNat < len.toNat) :
    Exactly start addr.toNat (len.toNat - total.toNat) (restLines line len addr source total) := by
  induction addr, source, total using restLines.induct line len with
  | case1 addr source total ih =>
    subst offset
    obtain ⟨some, counted, fits, all⟩ := restSize_bounds line left
    have next : (addr + restSize line len total).toNat = addr.toNat + (restSize line len total).toNat := by
      rw [BitVec.toNat_add_of_lt]
      omega
    rw [restLines]
    by_cases more : total + restSize line len total < len
    · have shorter : (total + restSize line len total).toNat < len.toNat := more
      have rest := ih more (by omega) rfl shorter
      rw [next, counted] at rest
      rw [counted] at shorter
      rw [dif_pos more, show len.toNat - total.toNat = (restSize line len total).toNat +
        (len.toNat - (total.toNat + (restSize line len total).toNat)) by omega]
      exact .cons ⟨addr, _, total⟩ rest some rfl place
    · rw [dif_neg more, ← all more]
      exact .cons ⟨addr, _, total⟩ (exactly_nil _ _) some rfl place

end Cover

def WholeLine (line : LineSize) (addr len : BitVec 64) : Prop := len = line.val ∧ addr % line.val = 0

instance {line : LineSize} {addr len : BitVec 64} : Decidable (WholeLine line addr len) :=
  inferInstanceAs (Decidable (_ ∧ _))

section Writes
variable (line : LineSize) {addr len : BitVec 64}

theorem first_fits (long : ¬ len < line.val) (other : ¬ WholeLine line addr len) :
    0 < (lineBase line addr + line.val - addr).toNat ∧
      (lineBase line addr + line.val - addr).toNat < len.toNat := by
  have size := firstSize_toNat line addr
  have small := Nat.mod_lt addr.toNat (show 0 < line.val.toNat from
    Nat.pos_of_ne_zero fun zero => line.property (BitVec.eq_of_toNat_eq zero))
  have large : line.val.toNat ≤ len.toNat := Nat.not_lt.mp long
  have apart : ¬ (len.toNat = line.val.toNat ∧ addr.toNat % line.val.toNat = 0) := fun both =>
    other ⟨BitVec.eq_of_toNat_eq both.1, BitVec.eq_of_toNat_eq both.2⟩
  omega

theorem lineWrites_exactly (room : addr.toNat + len.toNat < 2 ^ 64) (other : ¬ WholeLine line addr len) :
    Exactly addr.toNat addr.toNat len.toNat (lineWrites line addr len) := by
  unfold lineWrites
  by_cases none : len = 0
  · rw [if_pos none, none]
    exact exactly_nil _ _
  · rw [if_neg none]
    have some : 0 < len.toNat := Nat.pos_of_ne_zero fun zero => none (BitVec.eq_of_toNat_eq zero)
    by_cases short : len < line.val
    · rw [if_pos short]
      exact .cons ⟨addr, len, 0⟩ (exactly_nil _ _) some rfl rfl
    · rw [if_neg short]
      dsimp only
      obtain ⟨positive, less⟩ := first_fits line short other
      generalize lineBase line addr + line.val - addr = size at positive less
      have next : (addr + size).toNat = addr.toNat + size.toNat := BitVec.toNat_add_of_lt (by omega)
      have rest := restLines_exactly line room (addr + size) size size next rfl less
      rw [next] at rest
      rw [show len.toNat = size.toNat + (len.toNat - size.toNat) by omega]
      exact .cons ⟨addr, size, 0⟩ rest positive rfl rfl

-- The loop finds nothing left and still writes once.
theorem whole_line_writes (whole : WholeLine line addr len) :
    lineWrites line addr len = [⟨addr, len, 0⟩, ⟨addr + len, 0, len⟩] := by
  have size : lineBase line addr + line.val - addr = len := by
    apply BitVec.eq_of_toNat_eq
    have aligned : addr.toNat % line.val.toNat = 0 := congrArg BitVec.toNat whole.2
    rw [firstSize_toNat, aligned, whole.1]
    rfl
  have nothing : restSize line len len = 0 := by
    rw [restSize, BitVec.sub_self, if_neg (by bv_omega)]
    rfl
  unfold lineWrites
  dsimp only
  rw [size, restLines, nothing, if_neg, if_neg, dif_neg]
  · bv_omega
  · rw [whole.1]
    bv_omega
  · rw [whole.1]
    exact line.property

theorem restLines_short (addr source total : BitVec 64) :
    ∀ write ∈ restLines line len addr source total, write.len.toNat ≤ line.val.toNat := by
  induction addr, source, total using restLines.induct line len with
  | case1 addr source total ih =>
    have size : (restSize line len total).toNat ≤ line.val.toNat := by
      unfold restSize
      split
      · exact Nat.le_refl _
      · rename_i below
        exact Nat.not_lt.mp below
    rw [restLines, List.forall_mem_cons]
    constructor
    · exact size
    · split
      · rename_i more
        exact ih more
      · exact List.forall_mem_nil _

theorem lineWrites_short :
    ∀ write ∈ lineWrites line addr len, write.len.toNat ≤ line.val.toNat := by
  unfold lineWrites
  split
  · exact List.forall_mem_nil _
  · split
    · rename_i short
      exact List.forall_mem_singleton.mpr (Nat.le_of_lt short)
    · dsimp only
      rw [List.forall_mem_cons]
      constructor
      · rw [firstSize_toNat]
        exact Nat.sub_le _ _
      · exact restLines_short line _ _ _

end Writes

section Issue
variable {σ ε : Type} {writeMem : BitVec 64 → BitVec 64 → Buffer → σ → Except ε σ} {ok : σ → Prop}

/-- A WriteMem of some bytes, at most so many, inside a range returns, and leaves a memory of which this is
true. -/
structure Accepts (writeMem : BitVec 64 → BitVec 64 → Buffer → σ → Except ε σ) (ok : σ → Prop)
    (longest addr len : Nat) : Prop where
  write : ∀ mem (write : LineWrite) data, ok mem → 0 < write.len.toNat → write.len.toNat ≤ longest →
    addr ≤ write.addr.toNat → write.addr.toNat + write.len.toNat ≤ addr + len →
    ∃ after, writeMem write.addr write.len data mem = .ok after ∧ ok after

theorem issueWrites_ok {writes : List LineWrite} {longest addr len : Nat}
    (accepts : Accepts writeMem ok longest addr len) (short : ∀ write ∈ writes, write.len.toNat ≤ longest)
    (nonempty : ∀ write ∈ writes, 0 < write.len.toNat)
    (inside : ∀ write ∈ writes,
      addr ≤ write.addr.toNat ∧ write.addr.toNat + write.len.toNat ≤ addr + len)
    (data : Buffer) {mem : σ} (ready : ok mem) :
    ∃ after, issueWrites writeMem data writes mem = .ok after ∧ ok after := by
  induction writes generalizing mem with
  | nil => exact ⟨mem, rfl, ready⟩
  | cons write rest ih =>
    obtain ⟨fits, short⟩ := List.forall_mem_cons.mp short
    obtain ⟨some, nonempty⟩ := List.forall_mem_cons.mp nonempty
    obtain ⟨⟨above, below⟩, inside⟩ := List.forall_mem_cons.mp inside
    obtain ⟨middle, written, stays⟩ :=
      accepts.write mem write (fun index => data (write.source.toNat + index)) ready some fits above below
    obtain ⟨after, issued, last⟩ := ih short nonempty inside stays
    refine ⟨after, ?_, last⟩
    rw [issueWrites, written]
    exact issued

/-- In a range whose bytes can be written, the writes return and are exactly the range unless it is a whole
aligned line. -/
theorem cache_lines_exact_iff (configured : BitVec 32) (addr len : BitVec 64) (data : Buffer) {mem : σ}
    (room : addr.toNat + len.toNat < 2 ^ 64)
    (accepts : Accepts writeMem ok (lineSizeOf configured).val.toNat addr.toNat len.toNat)
    (ready : ok mem) :
    ((∃ after, writeCacheLine writeMem configured addr len data mem = .ok after) ∧
      Exactly addr.toNat addr.toNat len.toNat (lineWrites (lineSizeOf configured) addr len)) ↔
    ¬ (len = (lineSizeOf configured).val ∧ addr % (lineSizeOf configured).val = 0) := by
  constructor
  · rintro ⟨-, exact⟩ whole
    rw [whole_line_writes _ whole] at exact
    exact Nat.lt_irrefl 0 (exact.nonempty ⟨addr + len, 0, len⟩ (by simp))
  · intro other
    have exact := lineWrites_exactly _ room other
    obtain ⟨after, issued, -⟩ :=
      issueWrites_ok accepts (lineWrites_short _) exact.nonempty exact.inside data ready
    exact ⟨⟨after, issued⟩, exact⟩

end Issue

section Local
variable {mem : RevMem}

theorem touchable_inside {before : RevMem} (same : layout before = layout mem) {addr len place count : Nat}
    (valid : ∀ place, addr ≤ place → place < addr + len → mem.isValidVirtAddr place = true)
    (some : 0 < count) (above : addr ≤ place) (below : place + count ≤ addr + len) :
    Touchable before place count := by
  apply touchable_of_valid some
  intro step inside
  rw [isValidVirtAddr_layout same]
  exact valid _ (by omega) (by omega)

def writeLocal (addr len : BitVec 64) (data : Buffer) (mem : RevMem) : Except MemFault RevMem :=
  mem.writeMem 0 addr.toNat len.toNat data

theorem accepts_local {longest addr len : Nat} (sized : Sized mem) (positive : mem.tlbSize ≠ 0)
    (small : longest ≤ pageSize)
    (valid : ∀ place, addr ≤ place → place < addr + len → mem.isValidVirtAddr place = true) :
    Accepts writeLocal (fun after => Coherent after ∧ layout after = layout mem) longest addr len := by
  constructor
  intro before write data ⟨coherent, same⟩ some short above below
  have cached : before.tlbSize ≠ 0 := by
    rw [(layout_fields same).2]
    exact positive
  obtain ⟨after, stored, stays, kept, -⟩ := storeLocal_valid (sized.of_layout same) coherent cached
    (Nat.le_trans short small) (touchable_inside same valid some above below) data
  exact ⟨after, stored, stays, kept.trans same⟩

theorem issueWrites_local (sized : Sized mem) (positive : mem.tlbSize ≠ 0) (start : Nat) (data : Buffer)
    {writes : List LineWrite}
    (touchable : ∀ write ∈ writes, Touchable mem write.addr.toNat write.len.toNat ∧
      write.len.toNat ≤ pageSize ∧ write.addr.toNat = start + write.source.toNat)
    {before : RevMem} (coherent : Coherent before) (same : layout before = layout mem) :
    ∃ after, issueWrites writeLocal data writes before = .ok after ∧ Coherent after ∧
      layout after = layout mem ∧
      (∀ place, (∃ write ∈ writes, write.Holds place) → byteAt after place = data (place - start)) ∧
      ∀ place, (∀ write ∈ writes, ¬ write.Holds place) → byteAt after place = byteAt before place := by
  induction writes generalizing before with
  | nil => exact ⟨before, rfl, coherent, same, fun place none => by simp at none, fun _ _ => rfl⟩
  | cons write rest ih =>
    obtain ⟨⟨⟨first, next⟩, short, source⟩, touchable⟩ := List.forall_mem_cons.mp touchable
    have here : Touchable before write.addr.toNat write.len.toNat := by
      constructor
      · rw [isValidVirtAddr_layout same]
        exact first
      · rw [isValidVirtAddr_layout same]
        exact next
    have cached : before.tlbSize ≠ 0 := by
      rw [(layout_fields same).2]
      exact positive
    obtain ⟨middle, stored, stays, kept, bytes⟩ := storeLocal_valid (sized.of_layout same) coherent cached
      short here (fun index => data (write.source.toNat + index))
    obtain ⟨after, issued, last, laid, written, left⟩ := ih touchable stays (kept.trans same)
    have head : ∀ place, write.Holds place → byteAt middle place = data (place - start) := by
      intro place held
      rw [bytes, flatStore]
      refine (if_pos held).trans (congrArg data ?_)
      have above := held.1
      omega
    refine ⟨after, ?_, last, laid, ?_, ?_⟩
    · rw [issueWrites, show writeLocal write.addr write.len _ before = _ from stored]
      exact issued
    · rintro place ⟨other, member, held⟩
      by_cases later : ∃ write ∈ rest, write.Holds place
      · exact written place later
      · rw [left place fun write member held => later ⟨write, member, held⟩]
        rcases List.mem_cons.mp member with rfl | member
        · exact head place held
        · exact absurd ⟨other, member, held⟩ later
    · intro place outside
      obtain ⟨apart, outside⟩ := List.forall_mem_cons.mp outside
      rw [left place outside, bytes, flatStore]
      exact if_neg apart

section Touch
variable (configured : BitVec 32) (addr len : BitVec 64)
  (small : (lineSizeOf configured).val.toNat ≤ pageSize) (room : addr.toNat + len.toNat < 2 ^ 64)
  (valid : ∀ place, addr.toNat ≤ place → place < addr.toNat + len.toNat →
    mem.isValidVirtAddr place = true)
  (behind : WholeLine (lineSizeOf configured) addr len →
    mem.isValidVirtAddr (addr.toNat + len.toNat) = true)
include small room valid behind

theorem lineWrites_touch : (∀ write ∈ lineWrites (lineSizeOf configured) addr len,
      Touchable mem write.addr.toNat write.len.toNat ∧ write.len.toNat ≤ pageSize ∧
        write.addr.toNat = addr.toNat + write.source.toNat) ∧
    ∀ place, (∃ write ∈ lineWrites (lineSizeOf configured) addr len, write.Holds place) ↔
      addr.toNat ≤ place ∧ place < addr.toNat + len.toNat := by
  by_cases whole : WholeLine (lineSizeOf configured) addr len
  · have some : 0 < len.toNat := by
      rw [whole.1]
      exact Nat.pos_of_ne_zero fun zero => (lineSizeOf configured).property (BitVec.eq_of_toNat_eq zero)
    have next : (addr + len).toNat = addr.toNat + len.toNat := BitVec.toNat_add_of_lt room
    rw [whole_line_writes _ whole]
    constructor
    · rw [List.forall_mem_cons, List.forall_mem_singleton]
      constructor
      · refine ⟨touchable_inside rfl valid some (Nat.le_refl _) (Nat.le_refl _), ?_, rfl⟩
        rw [whole.1]
        exact small
      · refine ⟨⟨?_, ?_⟩, Nat.zero_le _, next⟩
        · rw [next]
          exact behind whole
        · intro crossing
          have inside := Nat.mod_lt (addr + len).toNat pageSize_pos
          exact absurd crossing (Nat.not_lt.mpr (Nat.le_of_lt inside))
    · intro place
      simp only [LineWrite.Holds, List.mem_cons, List.not_mem_nil, or_false, exists_eq_or_imp,
        exists_eq_left]
      change _ ∨ (_ ∧ place < (addr + len).toNat + 0) ↔ _
      omega
  · have exact := lineWrites_exactly (lineSizeOf configured) room whole
    constructor
    · intro write member
      have inside := exact.inside write member
      exact ⟨touchable_inside rfl valid (exact.nonempty write member) inside.1 inside.2,
        Nat.le_trans (lineWrites_short _ write member) small, exact.source write member⟩
    · exact exact.holds

/-- The bytes after WriteCacheLine; behind a whole line there has to be a valid address. -/
theorem writeCacheLine_local (sized : Sized mem) (positive : mem.tlbSize ≠ 0) (data : Buffer)
    {before : RevMem} (coherent : Coherent before) (same : layout before = layout mem) :
    ∃ after, writeCacheLine writeLocal configured addr len data before = .ok after ∧ Coherent after ∧
      layout after = layout mem ∧
      ∀ place, byteAt after place = flatStore (byteAt before) addr.toNat len.toNat data place := by
  obtain ⟨touchable, holds⟩ := lineWrites_touch configured addr len small room valid behind
  obtain ⟨after, issued, stays, laid, written, left⟩ :=
    issueWrites_local sized positive addr.toNat data touchable coherent same
  refine ⟨after, issued, stays, laid, ?_⟩
  intro place
  unfold flatStore
  by_cases inside : addr.toNat ≤ place ∧ place < addr.toNat + len.toNat
  · rw [if_pos inside, written place ((holds place).mpr inside)]
  · rw [if_neg inside]
    exact left place fun write member held => inside ((holds place).mp ⟨write, member, held⟩)

end Touch

/-- WriteMem with a controller, of which alone the line size is configured. -/
def writeCtrl (addr len : BitVec 64) (data : Buffer) (state : Ctrl × RevMem) :
    Except MemFault (Ctrl × RevMem) :=
  CrossPage.writeMem state.2 state.1 0 addr.toNat len.toNat data

theorem accepts_ctrl {longest addr len : Nat} (sized : Sized mem) (positive : mem.tlbSize ≠ 0)
    (small : longest ≤ pageSize)
    (valid : ∀ place, addr ≤ place → place < addr + len → mem.isValidVirtAddr place = true) :
    Accepts writeCtrl (fun state => Coherent state.2 ∧ layout state.2 = layout mem) longest addr len := by
  constructor
  rintro ⟨ctrl, before⟩ write data ⟨coherent, same⟩ some short above below
  dsimp only at coherent same
  have revoked := revokeFuture_unseen coherent write.addr.toNat
  have layouts := revoked.layout.trans same
  have cached : (before.revokeFuture write.addr.toNat).2.tlbSize ≠ 0 := by
    rw [(layout_fields layouts).2]
    exact positive
  obtain ⟨extent, after, located, unseen, -⟩ := locate_valid (sized.of_layout layouts) revoked.coherent
    cached (Nat.le_trans short small) (touchable_inside layouts valid some above below)
  have counted : Unseen after { after with memStats := { after.memStats with
      bytesWritten := (after.memStats.bytesWritten + write.len.toNat) % 2 ^ 32 } } :=
    .of_pageMap unseen.coherent rfl rfl rfl rfl unseen.coherent.cached
  have kept := unseen.layout.trans layouts
  unfold writeCtrl CrossPage.writeMem CrossPage.storeCtrl
  dsimp only
  rw [located]
  dsimp only
  split
  · exact ⟨_, rfl, counted.coherent, kept⟩
  · exact ⟨_, rfl, counted.coherent, kept⟩

theorem cache_lines_exact_iff_local :
    (∃ after, writeCacheLine writeLocal 0 1310700 200 (fun index => BitVec.ofNat 8 index)
        (RevMem.new 2097152 16 1 0) = .ok after) ∧
      Exactly 1310700 1310700 200 (lineWrites (lineSizeOf 0) 1310700 200) :=
  (cache_lines_exact_iff 0 1310700 200 _ (by decide)
    (accepts_local (sized_stack_only 16) (by decide) (by decide) (by
      intro place above below
      exact (valid_stack_only 16 place).mpr
        ⟨Nat.le_trans (by decide) above, Nat.lt_of_lt_of_le below (by decide)⟩))
    ⟨(untouched_new _ _ _ _).coherent, rfl⟩).mpr (by decide)

-- The last line of the memory can be written, but the write behind it is at the end of the memory.
theorem whole_line_faults :
    (∀ place, 2097088 ≤ place → place < 2097088 + 64 →
      (RevMem.new 2097152 16 1 0).isValidVirtAddr place = true) ∧
    writeCacheLine writeLocal 0 2097088 64 (fun _ => 7) (RevMem.new 2097152 16 1 0) =
      .error (.segFault 2097152) ∧
    ¬ Exactly 2097088 2097088 64 (lineWrites (lineSizeOf 0) 2097088 64) := by
  have writes : lineWrites (lineSizeOf 0) 2097088 64 = [⟨2097088, 64, 0⟩, ⟨2097152, 0, 64⟩] :=
    whole_line_writes (lineSizeOf 0) (by decide)
  refine ⟨?_, ?_, ?_⟩
  · intro place above below
    exact (valid_stack_only 16 place).mpr ⟨Nat.le_trans (by decide) above, by omega⟩
  · rw [writeCacheLine, writes]
    rfl
  · rw [writes]
    intro exact
    exact Nat.lt_irrefl 0 (exact.nonempty ⟨2097152, 0, 64⟩ (by simp))

end Local
end RevCPU.Loader
