import RevCPU.LoadCtrl
import RevCPU.PanRun
/-!
Accesses through the memory controller that leave their page. WriteMem and ReadMem then send two requests,
and both of them carry the address and the length of the whole access.
-/
namespace RevCPU.CrossPage
open Mem MemRefine MemCtrl LoadCtrl FirstTouch

/-- The common body of the two WriteMem overloads with a controller. -/
def storeCtrl (mem : RevMem) (ctrl : Ctrl) (hart addr len : Nat) (data : Buffer) (flags : BitVec 32) :
    Except MemFault (Ctrl × RevMem) :=
  let mem := (mem.revokeFuture addr).2
  match mem.locate addr len with
  | .error fault => .error fault
  | .ok (extent, after) =>
    let ctrl := ctrl.sendWRITERequest hart addr extent.physAddr (len % 2 ^ 32) data flags
    let after := { after with memStats := { after.memStats with
      bytesWritten := (after.memStats.bytesWritten + len) % 2 ^ 32 } }
    if walksOff mem addr len then
      .ok (ctrl.sendWRITERequest hart addr extent.adjPhysAddr (len % 2 ^ 32)
        (fun index => data (extent.count % 2 ^ 32 + index)) flags, after)
    else .ok (ctrl, after)

def writeMem (mem : RevMem) (ctrl : Ctrl) (hart addr len : Nat) (data : Buffer) :
    Except MemFault (Ctrl × RevMem) :=
  storeCtrl mem ctrl hart addr len data 0

def writeMemFlags (mem : RevMem) (ctrl : Ctrl) (hart addr len : Nat) (data : Buffer)
    (flags : BitVec 32) : Except MemFault (Ctrl × RevMem) :=
  storeCtrl mem ctrl hart addr len data flags

/-- The address lies in the range of a request. -/
def reaches (vAddr : Nat) (op : RevMemOp) : Bool :=
  decide (op.addr ≤ vAddr) && decide (vAddr < op.addr + op.size)

/-- The ranges of the requests cover that of the access, no address of it twice, and nothing else. -/
def CoverOnce (addr len : Nat) (sent : List RevMemOp) : Prop :=
  ∀ vAddr, (sent.filter (reaches vAddr)).length = if addr ≤ vAddr ∧ vAddr < addr + len then 1 else 0

/-- The new requests of a write: each brings the bytes of its range. -/
def WritesOnce (addr len : Nat) (data : Buffer) (before after : List RevMemOp) : Prop :=
  ∃ sent, after = before ++ sent ∧ CoverOnce addr len sent ∧
    ∀ op ∈ sent, op.op = .WRITE ∧ ∀ index < op.size, op.membuf index = data (op.addr + index - addr)

/-- The new requests of a read: each fills its part of the target and nothing behind it. -/
def ReadsOnce (addr len target : Nat) (before after : List RevMemOp) : Prop :=
  ∃ sent, after = before ++ sent ∧ CoverOnce addr len sent ∧
    ∀ op ∈ sent, op.op = .READ ∧ op.target = some (target + (op.addr - addr)) ∧
      op.addr + op.size ≤ addr + len

def WriteCovers (ctrl : Ctrl) (addr len : Nat) (data : Buffer)
    (result : Except MemFault (Ctrl × RevMem)) : Prop :=
  ∃ sent after, result = .ok (sent, after) ∧ WritesOnce addr len data ctrl.rqstQ sent.rqstQ

def ReadCovers (ctrl : Ctrl) (addr len target : Nat) (result : Except MemFault Ctrl) : Prop :=
  ∃ sent, result = .ok sent ∧ ReadsOnce addr len target ctrl.rqstQ sent.rqstQ

/-- The access is translated and stays on its page. -/
def Undivided (mem : RevMem) (addr len : Nat) : Prop :=
  (∃ result, mem.locate addr len = .ok result) ∧ walksOff mem addr len = false

section Cover
variable {addr len : Nat}

theorem whole_once {op : RevMemOp} (start : op.addr = addr) (size : op.size = len) :
    CoverOnce addr len [op] := by
  intro vAddr
  have inside : reaches vAddr op = true ↔ addr ≤ vAddr ∧ vAddr < addr + len := by
    rw [reaches, start, size, Bool.and_eq_true, decide_eq_true_iff, decide_eq_true_iff]
  by_cases within : addr ≤ vAddr ∧ vAddr < addr + len
  · rw [if_pos within, List.filter_cons_of_pos (inside.mpr within)]
    rfl
  · rw [if_neg within, List.filter_cons_of_neg (fun reached => within (inside.mp reached))]
    rfl

-- Two requests for the whole range cover its first byte twice.
theorem whole_twice {one two : RevMemOp} (nonempty : 1 ≤ len) (start : one.addr = addr)
    (size : one.size = len) (start' : two.addr = addr) (size' : two.size = len) :
    ¬ CoverOnce addr len [one, two] := by
  intro once
  have count := once addr
  have first : reaches addr one = true := by
    rw [reaches, start, size, Bool.and_eq_true, decide_eq_true_iff, decide_eq_true_iff]
    omega
  have second : reaches addr two = true := by
    rw [reaches, start', size', Bool.and_eq_true, decide_eq_true_iff, decide_eq_true_iff]
    omega
  rw [List.filter_cons_of_pos first, List.filter_cons_of_pos second, if_pos (by omega)] at count
  exact absurd count (by simp)

end Cover

section Requests
variable {mem : RevMem} {ctrl sent : Ctrl} {hart addr len : Nat} {flags : BitVec 32} (nonempty : 1 ≤ len)
include nonempty

-- The queue after two requests for the whole range.
theorem twice_uncovered {before after : List RevMemOp} {one two : RevMemOp}
    {each : List RevMemOp → Prop} (queued : after = before ++ [one, two])
    (start : one.addr = addr) (size : one.size = len) (start' : two.addr = addr) (size' : two.size = len) :
    ¬ ∃ sent, after = before ++ sent ∧ CoverOnce addr len sent ∧ each sent := by
  rintro ⟨sent, same, once, _⟩
  rw [queued] at same
  rw [← List.append_cancel_left same] at once
  exact whole_twice nonempty start size start' size' once

theorem storeCtrl_iff (short : len ≤ pageSize) {data : Buffer} {after : RevMem}
    (stored : storeCtrl mem ctrl hart addr len data flags = .ok (sent, after)) :
    WritesOnce addr len data ctrl.rqstQ sent.rqstQ ↔
      walksOff (mem.revokeFuture addr).2 addr len = false := by
  have small : len % 2 ^ 32 = len := by
    rw [pageSize] at short
    omega
  have some : len ≠ 0 := by omega
  rw [storeCtrl, small] at stored
  dsimp only at stored
  split at stored
  · cases stored
  · rename_i extent memory located
    split at stored
    · rename_i off
      rw [Ctrl.sendWRITERequest, if_neg some, Ctrl.sendWRITERequest, if_neg some] at stored
      cases stored
      rw [off]
      refine iff_of_false ?_ (by decide)
      exact twice_uncovered nonempty (List.append_assoc _ _ _) rfl rfl rfl rfl
    · rename_i stays
      rw [Ctrl.sendWRITERequest, if_neg some] at stored
      cases stored
      refine iff_of_true ?_ (Bool.eq_false_iff.mpr stays)
      refine ⟨_, rfl, ?_, fun op member => ?_⟩
      · exact whole_once rfl rfl
      rw [List.mem_singleton.mp member]
      refine ⟨rfl, fun index _ => ?_⟩
      exact congrArg data (Nat.add_sub_cancel_left addr index).symm

theorem readMemCtrl_iff {target hazard : Nat}
    (read : readMemCtrl mem ctrl hart addr len target hazard flags = .ok sent) :
    ReadsOnce addr len target ctrl.rqstQ sent.rqstQ ↔ walksOff mem addr len = false := by
  have some : len ≠ 0 := by omega
  rw [readMemCtrl] at read
  split at read
  · cases read
  · rename_i extent memory located
    dsimp only at read
    split at read
    · rename_i off
      rw [Ctrl.sendREADRequest, if_neg some, Ctrl.sendREADRequest, if_neg some] at read
      cases read
      rw [off]
      refine iff_of_false ?_ (by decide)
      exact twice_uncovered nonempty (List.append_assoc _ _ _) rfl rfl rfl rfl
    · rename_i stays
      rw [Ctrl.sendREADRequest, if_neg some] at read
      cases read
      refine iff_of_true ?_ (Bool.eq_false_iff.mpr stays)
      refine ⟨_, rfl, ?_, fun op member => ?_⟩
      · exact whole_once rfl rfl
      rw [List.mem_singleton.mp member]
      refine ⟨rfl, ?_, Nat.le_refl _⟩
      exact congrArg Option.some (congrArg (target + ·) (Nat.sub_self addr)).symm

theorem storeCtrl_covers (short : len ≤ pageSize) {data : Buffer} :
    WriteCovers ctrl addr len data (storeCtrl mem ctrl hart addr len data flags) ↔
      Undivided (mem.revokeFuture addr).2 addr len := by
  constructor
  · rintro ⟨sent, after, stored, once⟩
    refine ⟨?_, (storeCtrl_iff nonempty short stored).mp once⟩
    rw [storeCtrl] at stored
    dsimp only at stored
    split at stored
    · cases stored
    · rename_i extent memory located
      exact ⟨_, located⟩
  · rintro ⟨⟨⟨extent, memory⟩, located⟩, stays⟩
    have ⟨sent, after, stored⟩ : ∃ sent after,
        storeCtrl mem ctrl hart addr len data flags = .ok (sent, after) := by
      rw [storeCtrl]
      dsimp only
      rw [located, stays]
      exact ⟨_, _, rfl⟩
    exact ⟨sent, after, stored, (storeCtrl_iff nonempty short stored).mpr stays⟩

theorem readMemCtrl_covers {target hazard : Nat} :
    ReadCovers ctrl addr len target (readMemCtrl mem ctrl hart addr len target hazard flags) ↔
      Undivided mem addr len := by
  constructor
  · rintro ⟨sent, read, once⟩
    refine ⟨?_, (readMemCtrl_iff nonempty read).mp once⟩
    rw [readMemCtrl] at read
    split at read
    · cases read
    · rename_i extent memory located
      exact ⟨_, located⟩
  · rintro ⟨⟨⟨extent, memory⟩, located⟩, stays⟩
    have ⟨sent, read⟩ : ∃ sent,
        readMemCtrl mem ctrl hart addr len target hazard flags = .ok sent := by
      rw [readMemCtrl, located, stays]
      exact ⟨_, rfl⟩
    exact ⟨sent, read, (readMemCtrl_iff nonempty read).mpr stays⟩

end Requests

section Usable
variable {mem : RevMem} {addr len : Nat}

theorem walksOff_usable (usable : Pan.Usable mem addr len) :
    walksOff mem addr len = true ↔ pageSize < addr % pageSize + len := by
  have ⟨physAddr, after, translated, unseen, behind⟩ :=
    calcPhysAddr_valid usable.sized usable.coherent usable.cached usable.touchable.first
  have ⟨frame, owner, cell⟩ := Option.map_eq_some_iff.mp behind
  have fits := frame_fits unseen.coherent owner
  have sized := usable.sized.of_layout unseen.layout
  have base := pageBase_eq fits sized
  have small := sized.small
  have short := usable.short
  have lookup : after.frameOf (addr / pageSize) = (frame, after) := by
    rw [RevMem.frameOf, owner]
  rw [walksOff, page_shift, translated]
  dsimp only
  rw [lookup, decide_eq_true_iff, base, ← cell]
  simp only [pageSize] at fits short ⊢
  omega

theorem undivided_usable (usable : Pan.Usable mem addr len) :
    Undivided mem addr len ↔ addr % pageSize + len ≤ pageSize := by
  have ⟨extent, after, located, _⟩ :=
    locate_valid usable.sized usable.coherent usable.cached usable.short usable.touchable
  have off := walksOff_usable usable
  rw [Undivided, ← Bool.not_eq_true, off]
  constructor
  · rintro ⟨_, stays⟩
    omega
  · exact fun stays => ⟨⟨_, located⟩, by omega⟩

end Usable

/-- The requests of an access cover its range once, with the right bytes, exactly where it stays on its
page. -/
theorem requests_cover_once_iff (mem : RevMem) (ctrl : Ctrl) (hart addr len : Nat) (nonempty : 1 ≤ len)
    (short : len ≤ pageSize) (data : Buffer) (target hazard : Nat) (flags : BitVec 32) :
    (WriteCovers ctrl addr len data (writeMem mem ctrl hart addr len data) ↔
      Undivided (mem.revokeFuture addr).2 addr len) ∧
    (WriteCovers ctrl addr len data (writeMemFlags mem ctrl hart addr len data flags) ↔
      Undivided (mem.revokeFuture addr).2 addr len) ∧
    (ReadCovers ctrl addr len target (readMemCtrl mem ctrl hart addr len target hazard flags) ↔
      Undivided mem addr len) ∧
    (Pan.Usable mem addr len →
      (Undivided (mem.revokeFuture addr).2 addr len ↔ addr % pageSize + len ≤ pageSize) ∧
        (Undivided mem addr len ↔ addr % pageSize + len ≤ pageSize)) := by
  refine ⟨storeCtrl_covers nonempty short, storeCtrl_covers nonempty short, readMemCtrl_covers nonempty,
    fun usable => ⟨?_, undivided_usable usable⟩⟩
  have revoked := revokeFuture_unseen usable.coherent addr
  exact undivided_usable (usable.of_unseen revoked)

section Stack

/-- A memory of eight pages and a controller with nothing to do. -/
def stack : RevMem := .new 2097152 16 1 0

def idle : Ctrl := .new (fun _ => 0) fun _ => false

theorem stack_usable {addr len : Nat} (nonempty : 1 ≤ len) (short : len ≤ pageSize) (low : 1047552 ≤ addr)
    (high : addr + len ≤ 2097152) : Pan.Usable stack addr len := by
  refine ⟨sized_stack_only 16, (untouched_new _ _ _ _).coherent, by decide, short, ?_⟩
  apply touchable_of_valid nonempty
  intro step inside
  exact (valid_stack_only 16 _).mpr (by omega)

-- The last two bytes of a page.
theorem requests_cover_once_iff_two :
    WriteCovers idle 1310718 2 (fun _ => 7) (writeMem stack idle 0 1310718 2 fun _ => 7) ∧
      ReadCovers idle 1310718 2 64 (readMemCtrl stack idle 0 1310718 2 64 1 0) := by
  have usable : Pan.Usable stack 1310718 2 :=
    stack_usable (by decide) (by decide) (by decide) (by decide)
  have stays : 1310718 % pageSize + 2 ≤ pageSize := by decide
  have ⟨plain, _, read, inPage⟩ :=
    requests_cover_once_iff stack idle 0 1310718 2 (by decide) (by decide) (fun _ => 7) 64 1 0
  have ⟨written, loaded⟩ := inPage usable
  exact ⟨plain.mpr (written.mpr stays), read.mpr (loaded.mpr stays)⟩

-- Four bytes over the end of a page are written and read twice.
theorem crossing_requests_overlap :
    (∀ step < 4, stack.isValidVirtAddr (1310718 + step) = true) ∧
      ((writeMem stack idle 0 1310718 4 fun index => BitVec.ofNat 8 index).toOption.map fun result =>
        result.1.rqstQ.map fun op => (op.addr, op.size, (List.range 4).map op.membuf)) =
          some [(1310718, 4, [0, 1, 2, 3]), (1310718, 4, [2, 3, 4, 5])] ∧
      ((readMemCtrl stack idle 0 1310718 4 64 1 0).toOption.map fun sent =>
        sent.rqstQ.map fun op => (op.addr, op.size, op.target)) =
          some [(1310718, 4, some 64), (1310718, 4, some 66)] ∧
      (¬ WriteCovers idle 1310718 4 (fun index => BitVec.ofNat 8 index)
        (writeMem stack idle 0 1310718 4 fun index => BitVec.ofNat 8 index)) ∧
      ¬ ReadCovers idle 1310718 4 64 (readMemCtrl stack idle 0 1310718 4 64 1 0) := by
  have usable : Pan.Usable stack 1310718 4 :=
    stack_usable (by decide) (by decide) (by decide) (by decide)
  refine ⟨fun step inside => (valid_stack_only 16 _).mpr (by omega), ?_, ?_, fun covers => ?_,
    fun covers => ?_⟩
  · rfl
  · rfl
  · have stays := (storeCtrl_covers (by decide) (by decide)).mp covers
    have revoked := revokeFuture_unseen usable.coherent 1310718
    exact absurd ((undivided_usable (usable.of_unseen revoked)).mp stays) (by decide)
  · have stays := (readMemCtrl_covers (by decide)).mp covers
    exact absurd ((undivided_usable usable).mp stays) (by decide)

end Stack
end RevCPU.CrossPage
