import RevCPU.MemCtrlConserve
import RevCPU.LoadStore
/-!
The memory behind the interface, which serves the requests one at a time in the order sent, and what
the controller puts on the interface for one operation: a WRITE as a single store when its requests
cover it, and the WRITE of an AMO as the result of the AMO on the bytes its READ was answered with.
-/
namespace RevCPU.MemCtrl
open Mem MemRefine RegFile Atomic LoadStore

section Flat
variable (memory : Nat → Byte) (addr : Nat) {len : Nat} (data : Buffer)

theorem flatStore_outside {at' : Nat} (outside : ¬ (addr ≤ at' ∧ at' < addr + len)) :
    flatStore memory addr len data at' = memory at' := if_neg outside

theorem flatStore_inside {index : Nat} (inside : index < len) :
    flatStore memory addr len data (addr + index) = data index := by
  unfold flatStore
  rw [if_pos ⟨by omega, by omega⟩, Nat.add_sub_cancel_left]

theorem flatStore_congr {other : Buffer} (agree : ∀ index < len, data index = other index) :
    flatStore memory addr len data = flatStore memory addr len other := by
  funext at'
  unfold flatStore
  split
  · exact agree _ (by omega)
  · rfl

-- Two stores side by side are one.
theorem flatStore_append (first second : Nat) :
    flatStore (flatStore memory addr first data) (addr + first) second (fun index => data (first + index)) =
      flatStore memory addr (first + second) data := by
  funext at'
  unfold flatStore
  by_cases upper : addr + first ≤ at' ∧ at' < addr + first + second
  · have position : first + (at' - (addr + first)) = at' - addr := by omega
    rw [if_pos upper, if_pos ⟨by omega, by omega⟩]
    exact congrArg data position
  · rw [if_neg upper]
    by_cases lower : addr ≤ at' ∧ at' < addr + first
    · rw [if_pos lower, if_pos ⟨by omega, by omega⟩]
    · rw [if_neg lower, if_neg (by omega)]

end Flat

section Served

def serve (memory : Nat → Byte) (request : Request) : Nat → Byte :=
  if request.op.op = .WRITE then flatStore memory request.addr request.size request.data else memory

def served (base : Nat → Byte) (wire : List Request) : Nat → Byte := wire.foldl serve base

theorem served_append (base : Nat → Byte) (first second : List Request) :
    served base (first ++ second) = served (served base first) second := List.foldl_append

def Contiguous : Nat → List (Nat × Nat) → Prop
  | _, [] => True
  | start, (addr, size) :: rest => addr = start ∧ Contiguous (start + size) rest

instance decidableContiguous : (start : Nat) → (pieces : List (Nat × Nat)) →
    Decidable (Contiguous start pieces)
  | _, [] => isTrue trivial
  | start, (_, size) :: rest =>
    have := decidableContiguous (start + size) rest
    inferInstanceAs (Decidable (_ ∧ _))

/-- The requests of an operation are its bytes, one after the other. -/
def Covers (config : Config) (op : RevMemOp) : Prop :=
  Contiguous op.addr (piecesOf config op) ∧ ((piecesOf config op).map Prod.snd).sum = op.size

instance (config : Config) (op : RevMemOp) : Decidable (Covers config op) :=
  inferInstanceAs (Decidable (_ ∧ _))

variable {op : RevMemOp} {flags : BitVec 32} {pieces : List (Nat × Nat)}

theorem served_reads (memory : Nat → Byte) (id curByte : Nat) (reads : op.op ≠ .WRITE) :
    served memory (wireOf op flags id curByte pieces) = memory := by
  induction pieces generalizing id curByte with
  | nil => rfl
  | cons piece rest ih =>
    rw [wireOf, served, List.foldl_cons, serve, if_neg reads]
    exact ih _ _

theorem served_writes (memory : Nat → Byte) (id curByte : Nat) {start : Nat} (writes : op.op = .WRITE)
    (contiguous : Contiguous start pieces) :
    served memory (wireOf op flags id curByte pieces) =
      flatStore memory start (pieces.map Prod.snd).sum fun index => op.membuf (curByte + index) := by
  induction pieces generalizing id curByte start memory with
  | nil =>
    funext at'
    rw [flatStore_outside]
    · rfl
    · simp
  | cons piece rest ih =>
    obtain ⟨addr, size⟩ := piece
    obtain ⟨rfl, tail⟩ := contiguous
    rw [wireOf, served, List.foldl_cons, serve, if_pos writes, ← served, ih _ _ _ tail, List.map_cons,
      List.sum_cons, ← flatStore_append]
    simp only [Nat.add_assoc]

theorem served_sentOff {config : Config} {ctrl : Ctrl} {front back : List RevMemOp} {lane : Lane}
    (base : Nat → Byte) (covers : Covers config op) :
    served base (sentOff config ctrl front op back lane).wire =
      if op.op = .WRITE then flatStore (served base ctrl.wire) op.addr op.size op.membuf
      else served base ctrl.wire := by
  simp only [sentOff, dispatched]
  rw [served_append]
  split
  · rename_i writes
    rw [served_writes _ _ _ (show (split config op).op = .WRITE from writes) covers.1, covers.2]
    simp only [Nat.zero_add]
    rfl
  · rename_i reads
    exact served_reads _ _ _ reads

end Served

section Modify
variable (host : Nat → Byte) (target : Nat)

theorem load32_store32 (value : BitVec 32) : load32 (store32 host target value) target = value := by
  have bytes : load32 (store32 host target value) target = (word64 (bytesOf value)).setWidth 32 := by
    apply word32_congr
    intro index inside
    exact flatStore_inside host target (bytesOf value) inside
  rw [bytes, word64_bytesOf]
  simp

theorem load32_eq_low : load32 host target = (load64 host target).setWidth 32 :=
  word32_congr _ _ fun _ _ => rfl

theorem load64_store64 (value : BitVec 64) : load64 (store64 host target value) target = value := by
  have bytes : load64 (store64 host target value) target = word64 (bytesOf value) := by
    apply word64_congr
    intro index inside
    exact flatStore_inside host target (bytesOf value) inside
  rw [bytes, word64_bytesOf, BitVec.setWidth_eq]

-- Whatever the flags ask for, the low word of the target stays.
theorem load32_extendTarget (flags : BitVec 32) :
    load32 (extendTarget host target flags) target = load32 host target := by
  unfold extendTarget
  split
  · rw [load32_store32, sext, Bits.xorSub_setWidth _ (by decide) (by decide),
      Bits.setWidth_signExtend _ (by decide), BitVec.signExtend_eq]
  · split
    · have same : sext (load64 host target) 64 = load64 host target := by
        have wide := Bits.xorSub_setWidth (w := 64) (load64 host target) (by decide) (by decide)
        rw [BitVec.setWidth_eq, BitVec.signExtend_eq] at wide
        exact wide
      rw [load32_eq_low, load64_store64, same, ← load32_eq_low]
    · split
      · have ones : ((1 <<< 32 - 1 : BitVec 64)).setWidth 32 = BitVec.allOnes 32 := by decide
        rw [load32_store32, BitVec.setWidth_and, ones, BitVec.and_allOnes]
        simp
      · split
        · have ones : ((1 <<< 63 - 1 : BitVec 64)).setWidth 32 = BitVec.allOnes 32 := by decide
          rw [load32_eq_low, load64_store64, BitVec.setWidth_and, ones, BitVec.and_allOnes,
            ← load32_eq_low]
        · rfl

theorem operand_word (config : Config) (buffer : Buffer) : operand config 32 buffer 4 = word32 buffer := by
  simp only [operand, word32, Nat.reduceMul, Nat.reduceLT, ↓reduceIte, BitVec.signExtend_eq,
    BitVec.ofNat_eq_ofNat, BitVec.zero_or]
  apply BitVec.eq_of_getLsbD_eq
  intro i inside
  simp only [BitVec.getLsbD_append, BitVec.getLsbD_or, BitVec.getLsbD_shiftLeft,
    BitVec.getLsbD_setWidth]
  interval_cases i <;>
    simp only [Nat.reduceLT, Nat.reduceSub, Nat.reduceLeDiff, decide_true, decide_false, ↓reduceIte,
      BitVec.getLsbD_of_ge, Bool.not_true, Bool.not_false, Bool.and_false, Bool.and_true, Bool.true_and,
      Bool.false_and, Bool.or_false, Bool.false_or]

/-- What an AMO stores, from the memory it finds: 32 bits for size 4, else 64. -/
def amoResult (memory : Nat → Byte) (op : RevMemOp) : Buffer :=
  if op.size = 4 then
    bytesOf (modify op.flags (word32 fun index => memory (op.addr + index)) (word32 op.membuf))
  else bytesOf (modify op.flags (word64 fun index => memory (op.addr + index)) (word64 op.membuf))

-- The bytes of the answer pass through the target; the rest of the host does not matter.
theorem amoBuffer_eq (config : Config) (memory : Nat → Byte) {op : RevMemOp} {data : Buffer}
    (word : op.size = 4) (answer : ∀ index < 4, data index = memory (op.addr + index)) {index : Nat}
    (inside : index < 4) :
    amoBuffer config (flatStore host target op.size data) target op index = amoResult memory op index := by
  have loaded : load32 (flatStore host target 4 data) target =
      word32 fun index => memory (op.addr + index) := by
    unfold load32 word32
    simp only [← answer 0 (by decide), ← answer 1 (by decide), ← answer 2 (by decide),
      ← answer 3 (by decide)]
    rw [flatStore_inside host target data (show 0 < 4 by decide),
      flatStore_inside host target data (show 1 < 4 by decide),
      flatStore_inside host target data (show 2 < 4 by decide),
      flatStore_inside host target data (show 3 < 4 by decide)]
  unfold amoBuffer modifyTarget amoResult
  rw [if_pos word, if_pos word, store32, flatStore_inside _ _ _ inside, load32_extendTarget, word, loaded,
    operand_word]

end Modify
end RevCPU.MemCtrl
