import RevCPU.PanConvert
/-!
The puts to the address 0 and the transfer buffers of PanAddr.h. A buffer is a byte that says whether it is in
use, and 1024 bytes behind it. The byte is read as a word of 8, so that the 7 bytes behind the variable on the
stack of the host are written too; the buffer read into stands for the variable and these.
-/
namespace RevCPU.Pan
open Mem MemRefine RegFile OldRead

/-- `_PAN_XFER_BUF_ADDR_`, and `_PAN_XFER_BUF_` for the number of the buffers as for the bytes of one. -/
def xferBufAddr : Nat := 0x30005F68
def xferBuf : Nat := 1024

def xferValid (slot : Nat) : Nat := xferBufAddr + (1 + xferBuf) * slot
def xferBuffer (slot : Nat) : Nat := xferValid slot + 1

namespace PanCPU
variable (cpu : PanCPU)

/-- The put at the head of the queue goes into a buffer. -/
def placePut (slot : Nat) (size : BitVec 32) (data : Buffer) (rest : List (BitVec 32 × Buffer)) :
    Except PanFault PanCPU :=
  match cpu.mem.writeMem 0 (xferValid slot) 1 (fun _ => 2) with
  | .error fault => .error (.mem fault)
  | .ok mem =>
    match mem.writeMem 0 (xferBuffer slot) size.toNat data with
    | .error fault => .error (.mem fault)
    | .ok mem => .ok { cpu with mem := mem, zeroRqst := rest }

/-- The loop from a slot on, with `left` turns to go. -/
def zeroFrom (cpu : PanCPU) (tmpValid : Buffer) (slot : Nat) : Nat → Except PanFault (PanCPU × Buffer)
  | 0 => .ok (cpu, tmpValid)
  | left + 1 =>
    match cpu.zeroRqst with
    | [] => .ok (cpu, tmpValid)
    | (size, data) :: rest =>
      match cpu.readBytes (BitVec.ofNat 64 (xferValid slot)) 8 tmpValid with
      | .error fault => .error fault
      | .ok (tmpValid, cpu) =>
        if tmpValid 0 = 0 then
          match cpu.placePut slot size data rest with
          | .error fault => .error fault
          | .ok cpu => zeroFrom cpu (Function.update tmpValid 0 2) (slot + 1) left
        else zeroFrom cpu tmpValid (slot + 1) left

/-- The CPU and the bytes of the host after a call. -/
def processPANZeroAddr (host : Buffer) : Except PanFault (PanCPU × Buffer) :=
  if cpu.zeroRqst.isEmpty then .ok (cpu, host)
  else zeroFrom cpu (Function.update host 0 0) 0 rdmaMaxEntries

/-- What the variable and the bytes behind it hold after each of the reads. -/
def readsFrom (cpu : PanCPU) (tmpValid : Buffer) (slot : Nat) : Nat → List Buffer
  | 0 => []
  | left + 1 =>
    match cpu.zeroRqst with
    | [] => []
    | (size, data) :: rest =>
      match cpu.readBytes (BitVec.ofNat 64 (xferValid slot)) 8 tmpValid with
      | .error _ => []
      | .ok (tmpValid, cpu) => tmpValid ::
        if tmpValid 0 = 0 then
          match cpu.placePut slot size data rest with
          | .error _ => []
          | .ok cpu => readsFrom cpu (Function.update tmpValid 0 2) (slot + 1) left
        else readsFrom cpu tmpValid (slot + 1) left

end PanCPU

section Memory
variable {mem after : RevMem} {cpu : PanCPU} {slot : Nat}

structure XferMem (mem : RevMem) : Prop where
  sized : Sized mem
  coherent : Coherent mem
  cached : mem.tlbSize ≠ 0
  mapped : ∀ offset < (1 + xferBuf) * xferBuf, mem.isValidVirtAddr (xferBufAddr + offset) = true

theorem XferMem.of_layout (board : XferMem mem) (coherent : Coherent after)
    (same : layout after = layout mem) : XferMem after where
  sized := board.sized.of_layout same
  coherent := coherent
  cached := by
    rw [(layout_fields same).2]
    exact board.cached
  mapped := by
    intro offset inside
    rw [isValidVirtAddr_layout same]
    exact board.mapped offset inside

theorem XferMem.usable (board : XferMem mem) (named : slot < rdmaMaxEntries) {start len : Nat}
    (inside : start + len ≤ 1 + xferBuf) (some : start < 1 + xferBuf) :
    Usable mem (xferValid slot + start) len := by
  have place : xferValid slot + start = xferBufAddr + ((1 + xferBuf) * slot + start) := Nat.add_assoc _ _ _
  unfold rdmaMaxEntries at named
  unfold xferBuf at inside some
  refine ⟨board.sized, board.coherent, board.cached, ?_, ?_, ?_⟩
  · unfold pageSize
    omega
  · rw [place]
    apply board.mapped
    unfold xferBuf
    omega
  · intro crossing
    have next : xferValid slot + start + (pageSize - (xferValid slot + start) % pageSize) =
        xferBufAddr + ((1 + xferBuf) * slot + start + (pageSize - (xferValid slot + start) % pageSize)) := by
      rw [place]
      omega
    rw [next]
    apply board.mapped
    have short : pageSize - (xferValid slot + start) % pageSize ≤ 1 + xferBuf := by
      unfold xferBuf
      omega
    unfold xferBuf at short ⊢
    omega

theorem valid_toNat (named : slot < rdmaMaxEntries) :
    (BitVec.ofNat 64 (xferValid slot)).toNat = xferValid slot := by
  rw [BitVec.toNat_ofNat]
  apply Nat.mod_eq_of_lt
  unfold xferValid xferBufAddr xferBuf
  unfold rdmaMaxEntries at named
  omega

theorem valid_inside (named : slot < rdmaMaxEntries) : xferValid slot % pageSize + 8 ≤ pageSize := by
  unfold rdmaMaxEntries at named
  have place : xferValid slot = 24424 + 1025 * slot + pageSize * 3072 := by
    unfold xferValid xferBufAddr xferBuf pageSize
    omega
  rw [place, Nat.add_mul_mod_self_left]
  unfold pageSize
  -- The buffers up to the one with the number 231 begin in the first page.
  by_cases low : slot ≤ 231
  · rw [Nat.mod_eq_of_lt (by omega)]
    omega
  · have behind : 24424 + 1025 * slot = 80 + 1025 * (slot - 232) + 262144 := by omega
    rw [behind, Nat.add_mod_right, Nat.mod_eq_of_lt (by omega)]
    omega

theorem readValid (board : XferMem cpu.mem) (named : slot < rdmaMaxEntries) (tmpValid : Buffer) :
    ∃ mem, cpu.readBytes (BitVec.ofNat 64 (xferValid slot)) 8 tmpValid =
        .ok (flatLoad (byteAt cpu.mem) (xferValid slot) 8 tmpValid, { cpu with mem := mem }) ∧
      Unseen cpu.mem mem := by
  have usable : Usable cpu.mem (xferValid slot + 0) 8 := board.usable named (by decide) (by decide)
  rw [Nat.add_zero] at usable
  have ⟨mem, read, unseen⟩ := readMemOld_valid usable tmpValid
  have inside := valid_inside named
  have whole : loadOld (byteAt cpu.mem) (xferValid slot) 8 tmpValid =
      flatLoad (byteAt cpu.mem) (xferValid slot) 8 tmpValid := by
    have count : min 8 (pageSize - xferValid slot % pageSize) = 8 := by omega
    rw [loadOld, count, if_pos rfl]
  refine ⟨mem, ?_, unseen⟩
  rw [PanCPU.readBytes, valid_toNat named, read, whole]

theorem placePut_fits (cpu : PanCPU) (board : XferMem cpu.mem) (named : slot < rdmaMaxEntries)
    {size : BitVec 32} (data : Buffer) (rest : List (BitVec 32 × Buffer)) (fits : size.toNat ≤ xferBuf) :
    ∃ mem, cpu.placePut slot size data rest = .ok { cpu with mem := mem, zeroRqst := rest } ∧ XferMem mem ∧
      ∀ vAddr, byteAt mem vAddr = flatStore (flatStore (byteAt cpu.mem) (xferValid slot) 1 fun _ => 2)
        (xferBuffer slot) size.toNat data vAddr := by
  have usable : Usable cpu.mem (xferValid slot + 0) 1 := board.usable named (by decide) (by decide)
  rw [Nat.add_zero] at usable
  have ⟨first, marked, coherent, same, stored⟩ := writeMem_valid usable fun _ => (2 : Byte)
  have boardFirst := board.of_layout coherent same
  have room : Usable first (xferBuffer slot) size.toNat :=
    boardFirst.usable named (by omega) (by decide)
  have ⟨mem, written, coherentAfter, sameAfter, storedAfter⟩ := writeMem_valid room data
  refine ⟨mem, ?_, boardFirst.of_layout coherentAfter sameAfter, ?_⟩
  · rw [PanCPU.placePut, marked]
    dsimp only
    rw [written]
  · intro vAddr
    rw [storedAfter, funext stored]

end Memory
end RevCPU.Pan
