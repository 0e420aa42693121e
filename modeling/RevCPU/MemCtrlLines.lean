import RevCPU.Lib.Arc
import RevCPU.MemCtrlRun
/-!
The requests buildCacheMemRqst sends for one operation. Their number, the size of the first one and
the loop for the rest are worked out apart from each other; where they agree, the requests cut the
operation's bytes at the line boundaries.
-/
namespace RevCPU.MemCtrl
open Mem MemRefine Arcs

section Pieces
variable {config : Config}

theorem tailPieces_laid (count left : Nat) {base : Nat} :
    Laid (2 ^ 64) base (tailPieces config count base left) := by
  induction count generalizing base left with
  | zero => exact .nil base
  | succ count ih => exact .cons _ (ih _)

theorem tailPieces_total (count base left : Nat) :
    total (tailPieces config count base left) = min left (count * config.lineSize) := by
  induction count generalizing base left with
  | zero => simp [tailPieces]
  | succ count ih =>
    simp only [tailPieces, total_cons, ih, Nat.succ_mul]
    split
    · omega
    · omega

-- A piece that is not the last one is a whole line.
theorem tailPieces_positive (positive : 0 < config.lineSize) (count base left : Nat) :
    (∀ piece ∈ tailPieces config count base left, 0 < piece.2) ↔
      count = 0 ∨ (count - 1) * config.lineSize < left := by
  induction count generalizing base left with
  | zero => simp [tailPieces]
  | succ count ih =>
    simp only [tailPieces, List.forall_mem_cons, ih]
    cases count with
    | zero =>
      simp only [true_or, and_true, Nat.zero_mul, Nat.zero_add, Nat.sub_self]
      split
      · omega
      · omega
    | succ count =>
      simp only [Nat.add_sub_cancel, Nat.succ_ne_zero, false_or, Nat.succ_mul]
      split
      · omega
      · omega

-- Behind the end of the bytes the pieces are empty, wherever they stand.
theorem tailPieces_within (divides : config.lineSize ∣ 2 ^ 64) (positive : 0 < config.lineSize)
    {count base left : Nat} (aligned : base % config.lineSize = 0 ∨ left = 0) :
    ∀ piece ∈ tailPieces config count base left,
      piece.1 % config.lineSize + piece.2 ≤ config.lineSize := by
  induction count generalizing base left with
  | zero => simp [tailPieces]
  | succ count ih =>
    have bound : base % config.lineSize < config.lineSize := Nat.mod_lt _ positive
    simp only [tailPieces, List.forall_mem_cons]
    constructor
    · split
      · omega
      · omega
    · apply ih
      by_cases short : left < config.lineSize
      · rw [if_pos short]
        exact .inr (Nat.sub_self left)
      · rw [if_neg short]
        rcases aligned with aligned | none
        · left
          rw [Nat.mod_mod_of_dvd _ divides, Nat.add_mod_right, aligned]
        · exact .inr (by omega)

end Pieces

section Lines
variable (lineSize addr size : Nat)

/-- The operation comes to the top of the address space from below its last line, and does not start
at a line. Then the sum of address and size has no place in 64 bits and passes for a small one. -/
def Topped : Prop :=
  addr % lineSize ≠ 0 ∧ 2 ^ 64 ≤ addr + size ∧ addr - addr % lineSize + lineSize < 2 ^ 64

/-- The operation is shorter than a line; or it starts at a line and is one line or no whole number of
them; or it starts behind the first byte of a line and its whole lines leave no more than reaches the
end of the last one counted. -/
def Counted : Prop :=
  size < lineSize ∨
    (addr % lineSize = 0 ∧ (size = lineSize ∨ size % lineSize ≠ 0)) ∨
    (1 < addr % lineSize ∧ addr % lineSize + size % lineSize ≤ lineSize)

end Lines

section First
variable (config : Config) (addr size : Nat)

def firstSize : Nat :=
  if 1 < getNumCacheLines config addr size then getBaseCacheLineSize config addr size else size

theorem cachePieces_eq : cachePieces config addr size =
    (addr, firstSize config addr size) :: tailPieces config (getNumCacheLines config addr size - 1)
      ((addr + firstSize config addr size) % 2 ^ 64) (size - firstSize config addr size) := rfl

theorem cachePieces_laid : Laid (2 ^ 64) addr (cachePieces config addr size) :=
  .cons _ (tailPieces_laid _ _)

theorem cachePieces_total : total (cachePieces config addr size) =
    firstSize config addr size + min (size - firstSize config addr size)
      ((getNumCacheLines config addr size - 1) * config.lineSize) := by
  rw [cachePieces_eq, total_cons, tailPieces_total]

end First

section Counts
variable {config : Config} {addr size : Nat} (cached : 0 < config.lineSize)
include cached

-- The lines that are counted are those that the bytes touch.
theorem counted_iff (nonempty : 0 < size) :
    ((getNumCacheLines config addr size - 1) * config.lineSize < addr % config.lineSize + size ∧
      addr % config.lineSize + size ≤ getNumCacheLines config addr size * config.lineSize) ↔
    Counted config.lineSize addr size := by
  have offset : addr % config.lineSize < config.lineSize := Nat.mod_lt _ cached
  have rest : size % config.lineSize < config.lineSize := Nat.mod_lt _ cached
  have whole := Nat.div_add_mod size config.lineSize
  have known : ¬ hasCache config = false := by simp [hasCache, cached]
  have few : size < config.lineSize → size % config.lineSize = size := Nat.mod_eq_of_lt
  unfold getNumCacheLines Counted
  rw [if_neg known]
  by_cases short : size < config.lineSize
  · rw [iff_true_right (Or.inl short)]
    split
    · split
      · omega
      · omega
    · split
      · omega
      · omega
  · have lines : 0 < size / config.lineSize := Nat.div_pos (Nat.le_of_not_lt short) cached
    obtain ⟨more, count⟩ : ∃ more, size / config.lineSize = more + 1 :=
      ⟨_, (Nat.succ_pred_eq_of_pos lines).symm⟩
    rw [count, Nat.mul_comm, Nat.succ_mul] at whole
    rw [count]
    split
    · split
      · omega
      · split
        · simp only [Nat.add_sub_cancel, Nat.succ_mul]
          omega
        · simp only [Nat.add_zero, Nat.add_sub_cancel, Nat.succ_mul]
          omega
    · split
      · omega
      · simp only [Nat.add_sub_cancel, Nat.succ_mul]
        omega

-- There is a second request only where the bytes go on behind the first line.
theorem outgrows (several : 1 < getNumCacheLines config addr size) :
    config.lineSize - addr % config.lineSize < size := by
  have known : ¬ hasCache config = false := by simp [hasCache, cached]
  unfold getNumCacheLines at several
  rw [if_neg known] at several
  split at several
  · split at several
    · omega
    · omega
  · split at several
    · omega
    · omega

-- Then the first one ends with its line.
theorem first_piece (divides : config.lineSize ∣ 2 ^ 64) (inside : addr < 2 ^ 64) (short : size < 2 ^ 32)
    (several : 1 < getNumCacheLines config addr size) :
    getBaseCacheLineSize config addr size = size ∧ Topped config.lineSize addr size ∨
      getBaseCacheLineSize config addr size = config.lineSize - addr % config.lineSize ∧
        ¬ Topped config.lineSize addr size := by
  have offset : addr % config.lineSize < config.lineSize := Nat.mod_lt _ cached
  have below : addr % config.lineSize ≤ addr := Nat.mod_le _ _
  have aligned : config.lineSize ∣ addr - addr % config.lineSize := Nat.dvd_sub_mod addr
  have room : config.lineSize ≤ 2 ^ 64 - (addr - addr % config.lineSize) :=
    Nat.le_of_dvd (by omega) (Nat.dvd_sub divides aligned)
  have beyond := outgrows cached several
  unfold getBaseCacheLineSize Topped
  dsimp only
  by_cases start : addr % config.lineSize = 0
  · rw [if_pos (by omega), if_neg (by omega)]
    omega
  · rw [if_neg (by omega)]
    by_cases top : 2 ^ 64 ≤ addr + size
    · have around : (addr + size) % 2 ^ 64 = addr + size - 2 ^ 64 := by
        rw [Nat.mod_eq_sub_mod top, Nat.mod_eq_of_lt (by omega)]
      rw [around]
      by_cases last : addr - addr % config.lineSize + config.lineSize < 2 ^ 64
      · rw [Nat.mod_eq_of_lt last, if_pos (by omega)]
        exact .inl ⟨rfl, start, top, last⟩
      · rw [show addr - addr % config.lineSize + config.lineSize = 2 ^ 64 by omega, Nat.mod_self,
          if_neg (by omega)]
        omega
    · rw [Nat.mod_eq_of_lt (Nat.lt_of_not_le top)]
      by_cases last : addr - addr % config.lineSize + config.lineSize < 2 ^ 64
      · rw [Nat.mod_eq_of_lt last, if_neg (by omega)]
        omega
      · omega

theorem firstSize_le : firstSize config addr size ≤ size := by
  have below : addr % config.lineSize ≤ addr := Nat.mod_le _ _
  unfold firstSize
  split
  · rename_i several
    have beyond := outgrows cached several
    unfold getBaseCacheLineSize
    dsimp only
    split
    · split
      · exact Nat.le_refl _
      · omega
    · split
      · exact Nat.le_refl _
      · omega
  · exact Nat.le_refl _

theorem second_aligned (divides : config.lineSize ∣ 2 ^ 64) (inside : addr < 2 ^ 64)
    (short : size < 2 ^ 32) :
    (addr + firstSize config addr size) % 2 ^ 64 % config.lineSize = 0 ∨
      size - firstSize config addr size = 0 := by
  unfold firstSize
  split
  · rename_i several
    obtain ⟨whole, -⟩ | ⟨line, -⟩ := first_piece cached divides inside short several
    · rw [whole, Nat.sub_self]
      exact .inr rfl
    · left
      have offset : addr % config.lineSize < config.lineSize := Nat.mod_lt _ cached
      have below : addr % config.lineSize ≤ addr := Nat.mod_le _ _
      have next : addr + (config.lineSize - addr % config.lineSize) =
          addr - addr % config.lineSize + config.lineSize := by omega
      rw [line, Nat.mod_mod_of_dvd _ divides, next, Nat.add_mod_right]
      exact Nat.mod_eq_zero_of_dvd (Nat.dvd_sub_mod addr)
  · exact .inr (Nat.sub_self size)

-- The first piece stays in its line, the pieces reach the end, and none is left empty.
theorem fits_iff (divides : config.lineSize ∣ 2 ^ 64) (inside : addr < 2 ^ 64) (short : size < 2 ^ 32)
    (nonempty : 0 < size) :
    (addr % config.lineSize + firstSize config addr size ≤ config.lineSize ∧
      size ≤ firstSize config addr size + (getNumCacheLines config addr size - 1) * config.lineSize ∧
      (getNumCacheLines config addr size - 1 = 0 ∨
        (getNumCacheLines config addr size - 1 - 1) * config.lineSize <
          size - firstSize config addr size)) ↔
    Counted config.lineSize addr size ∧ ¬ Topped config.lineSize addr size := by
  have offset : addr % config.lineSize < config.lineSize := Nat.mod_lt _ cached
  have below : addr % config.lineSize ≤ addr := Nat.mod_le _ _
  rw [← counted_iff cached nonempty]
  by_cases several : 1 < getNumCacheLines config addr size
  · have beyond := outgrows cached several
    have pieces := first_piece cached divides inside short several
    obtain ⟨more, count⟩ : ∃ more, getNumCacheLines config addr size = more + 2 :=
      ⟨_, (Nat.sub_add_cancel several).symm⟩
    rw [firstSize, if_pos several, count]
    simp only [Nat.succ_mul, Nat.add_one_sub_one]
    rcases pieces with ⟨whole, topped⟩ | ⟨line, low⟩
    · rw [whole]
      simp only [topped, not_true, and_false, iff_false]
      omega
    · rw [line]
      simp only [low, not_false_eq_true, and_true]
      omega
  · have one : getNumCacheLines config addr size = 1 := by
      have some : 0 < getNumCacheLines config addr size := getNumCacheLines_pos addr size
      omega
    rw [firstSize, if_neg several, one]
    unfold Topped
    omega

end Counts

section Requests
variable {config : Config} {ctrl after : Ctrl} {op : RevMemOp} {flags : BitVec 32}

def newRequests (ctrl after : Ctrl) : List Request := after.wire.drop ctrl.wire.length

/-- The requests cut the operation's bytes at line boundaries. Addresses are of 64 bits, so the bytes
behind the last address are the first ones. -/
structure Partitions (config : Config) (op : RevMemOp) (sent : List Request) : Prop where
  nonempty : ∀ request ∈ sent, 0 < request.size
  once : ∀ cell,
    (sent.countP fun request => decide (cell ∈ (⟨request.addr, request.size⟩ : Arc (2 ^ 64)))) =
      if cell ∈ (⟨op.addr, op.size⟩ : Arc (2 ^ 64)) then 1 else 0
  line : ∀ request ∈ sent, request.addr % config.lineSize + request.size ≤ config.lineSize
  number : ∀ request ∈ sent, request.op.splitRqst = sent.length
  bytes : op.op = .WRITE → ∀ request ∈ sent, ∀ index < request.size,
    request.data index = op.membuf (distance (2 ^ 64) op.addr request.addr + index)

theorem issueAll_wire (lane : Lane) (curByte : Nat) (pieces : List (Nat × Nat)) :
    (ctrl.issueAll op lane flags curByte pieces).wire =
      ctrl.wire ++ wireOf op flags ctrl.nextId curByte pieces := by
  induction pieces generalizing ctrl curByte with
  | nil => simp [Ctrl.issueAll, wireOf]
  | cons piece rest ih =>
    rw [Ctrl.issueAll, ih]
    simp [Ctrl.issue, Ctrl.bump, wireOf]

-- The requests of an operation are its pieces, in the same order.
theorem wireOf_pieces (op : RevMemOp) (flags : BitVec 32) (id curByte : Nat) (pieces : List (Nat × Nat)) :
    (wireOf op flags id curByte pieces).map (fun request => (request.addr, request.size)) = pieces := by
  induction pieces generalizing id curByte with
  | nil => rfl
  | cons piece rest ih => rw [wireOf, List.map_cons, ih]

theorem wireOf_op (id curByte : Nat) (pieces : List (Nat × Nat)) :
    ∀ request ∈ wireOf op flags id curByte pieces, request.op = op := by
  induction pieces generalizing id curByte with
  | nil => simp [wireOf]
  | cons piece rest ih =>
    rw [wireOf, List.forall_mem_cons]
    exact ⟨rfl, ih _ _⟩

-- Each request takes its bytes from where it lies in the operation.
theorem wireOf_data (inside : op.addr < 2 ^ 64) {id curByte base : Nat} {pieces : List (Nat × Nat)}
    (laid : Laid (2 ^ 64) base pieces) (start : base = (op.addr + curByte) % 2 ^ 64)
    (short : curByte + total pieces < 2 ^ 64) :
    ∀ request ∈ wireOf op flags id curByte pieces, ∀ index,
      request.data index = op.membuf (distance (2 ^ 64) op.addr request.addr + index) := by
  induction laid generalizing id curByte with
  | nil base => simp [wireOf]
  | @cons base rest size tail ih =>
    rw [total_cons] at short
    rw [wireOf, List.forall_mem_cons]
    constructor
    · intro index
      rw [start, distance_next inside (by omega)]
    · apply ih
      · rw [start, Nat.mod_add_mod, Nat.add_assoc]
      · dsimp only at short
        omega

theorem wireOf_forall (id curByte : Nat) (pieces : List (Nat × Nat)) (meets : Nat → Nat → Prop) :
    (∀ request ∈ wireOf op flags id curByte pieces, meets request.addr request.size) ↔
      ∀ piece ∈ pieces, meets piece.1 piece.2 := by
  conv_rhs => rw [← wireOf_pieces op flags id curByte pieces]
  rw [List.forall_mem_map]

theorem wireOf_holders (id curByte : Nat) (pieces : List (Nat × Nat)) (cell : Nat) :
    ((wireOf op flags id curByte pieces).countP fun request =>
      decide (cell ∈ (⟨request.addr, request.size⟩ : Arc (2 ^ 64)))) = holders (2 ^ 64) cell pieces := by
  conv_rhs => rw [← wireOf_pieces op flags id curByte pieces]
  rw [holders, List.countP_map]
  rfl

theorem length_wireOf (id curByte : Nat) (pieces : List (Nat × Nat)) :
    (wireOf op flags id curByte pieces).length = pieces.length := by
  conv_rhs => rw [← wireOf_pieces op flags id curByte pieces]
  rw [List.length_map]

section Cache
variable (cached : 0 < config.lineSize) (divides : config.lineSize ∣ 2 ^ 64)
  (inside : op.addr < 2 ^ 64) (short : op.size < 2 ^ 32) (nonempty : 0 < op.size)
include cached divides inside short nonempty

theorem partitions_iff (id : Nat) :
    Partitions config op
      (wireOf { op with splitRqst := getNumCacheLines config op.addr op.size } flags id 0
        (cachePieces config op.addr op.size)) ↔
    Counted config.lineSize op.addr op.size ∧ ¬ Topped config.lineSize op.addr op.size := by
  rw [← fits_iff cached divides inside short nonempty]
  have pieces := cachePieces_eq config op.addr op.size
  have laid := cachePieces_laid config op.addr op.size
  have sum := cachePieces_total config op.addr op.size
  have within : firstSize config op.addr op.size ≤ op.size := firstSize_le cached
  have reach : total (cachePieces config op.addr op.size) ≤ op.size := by omega
  constructor
  · intro cut
    have lines := (wireOf_forall _ _ _ fun addr size =>
      addr % config.lineSize + size ≤ config.lineSize).mp cut.line
    have filled := (wireOf_forall _ _ _ fun _ size => 0 < size).mp cut.nonempty
    rw [pieces, List.forall_mem_cons] at lines filled
    have apart := distance_next inside (show op.size - 1 < 2 ^ 64 by omega)
    have mine : (op.addr + (op.size - 1)) % 2 ^ 64 ∈ (⟨op.addr, op.size⟩ : Arc (2 ^ 64)) := by
      rw [mem_arc, apart]
      exact ⟨Nat.mod_lt _ (by decide), by omega⟩
    have last := cut.once ((op.addr + (op.size - 1)) % 2 ^ 64)
    rw [wireOf_holders, laid.holders inside (by omega), if_pos mine] at last
    have covered : op.size - 1 < total (cachePieces config op.addr op.size) := by
      by_contra out
      rw [if_neg fun member => out (apart ▸ (mem_arc.mp member).2)] at last
      cases last
    refine ⟨lines.1, by omega, (tailPieces_positive cached _ _ _).mp filled.2⟩
  · rintro ⟨line, reaches, filled⟩
    have whole : total (cachePieces config op.addr op.size) = op.size := by omega
    constructor
    · apply (wireOf_forall _ _ _ fun _ size => 0 < size).mpr
      rw [pieces, List.forall_mem_cons]
      refine ⟨?_, (tailPieces_positive cached _ _ _).mpr filled⟩
      unfold firstSize at *
      split
      · rename_i several
        obtain ⟨whole, -⟩ | ⟨line, -⟩ := first_piece cached divides inside short several
        · rw [whole]
          exact nonempty
        · rw [line]
          exact Nat.sub_pos_of_lt (Nat.mod_lt _ cached)
      · exact nonempty
    · intro cell
      rw [wireOf_holders, laid.holders inside (by omega), whole]
    · apply (wireOf_forall _ _ _ fun addr size =>
        addr % config.lineSize + size ≤ config.lineSize).mpr
      rw [pieces, List.forall_mem_cons]
      exact ⟨line, tailPieces_within divides cached
        (second_aligned cached divides inside short)⟩
    · intro request member
      rw [wireOf_op _ _ _ request member, length_wireOf, length_cachePieces]
    · intro _ request member index _
      have start : op.addr = (op.addr + 0) % 2 ^ 64 := (Nat.mod_eq_of_lt inside).symm
      have place : ({ op with splitRqst := getNumCacheLines config op.addr op.size } : RevMemOp).addr <
        2 ^ 64 := inside
      exact wireOf_data place laid start (by omega) request member index

end Cache

/-- What buildCacheMemRqst sends for a READ or a WRITE cuts its bytes into one request for each line
if and only if its lines are counted right and its end has a place in 64 bits or lies in its first
line. -/
theorem cache_split_iff {shift : Nat} (line : config.lineSize = 2 ^ shift) (width : shift < 32)
    (inside : op.addr < 2 ^ 64) (nonempty : 0 < op.size) (short : op.size < 2 ^ 32)
    (kind : op.op = .READ ∨ op.op = .WRITE)
    (sent : ctrl.buildCacheMemRqst config op = some (true, after)) :
    Partitions config op (newRequests ctrl after) ↔
      Counted config.lineSize op.addr op.size ∧ ¬ Topped config.lineSize op.addr op.size := by
  have cached : 0 < config.lineSize := by
    rw [line]
    exact Nat.pow_pos (by decide)
  have divides : config.lineSize ∣ 2 ^ 64 := by
    rw [line]
    exact Nat.pow_dvd_pow 2 (by omega)
  obtain ⟨lane, isLane⟩ : ∃ lane, op.op.lane = some lane := by
    rcases kind with read | write
    · exact ⟨.read, by rw [read]; rfl⟩
    · exact ⟨.write, by rw [write]; rfl⟩
  simp only [Ctrl.buildCacheMemRqst, isLane] at sent
  split at sent
  · cases sent
  · cases sent
    rw [newRequests, issueAll_wire, List.drop_left]
    exact partitions_iff cached divides inside short nonempty ctrl.nextId

def lines64 : Config := ⟨64, fun _ => 8, 8, fun _ _ => 0⟩

def emptyCtrl : Ctrl := Ctrl.new (fun _ => 0) fun _ => false

def emptyRun : Run := ⟨emptyCtrl, none, [], []⟩

theorem cache_split_iff_crossing :
    ∃ after, emptyCtrl.buildCacheMemRqst lines64 (Ctrl.newOp 0 60 60 8 .WRITE 0) = some (true, after) ∧
      Partitions lines64 (Ctrl.newOp 0 60 60 8 .WRITE 0) (newRequests emptyCtrl after) := by
  refine ⟨_, rfl, ?_⟩
  have low : ¬ Topped 64 60 8 := fun topped => absurd topped.2.1 (by decide)
  have line : lines64.lineSize = 2 ^ 6 := rfl
  exact (cache_split_iff line (by decide) (by decide) (by decide) (by decide) (.inr rfl) rfl).mpr
    ⟨.inl (by decide), low⟩

/-- Two whole lines are counted as three, and the third request is empty. -/
theorem whole_lines_send_empty :
    ∃ after, emptyCtrl.buildCacheMemRqst lines64 (Ctrl.newOp 0 64 64 128 .READ 0) = some (true, after) ∧
      (newRequests emptyCtrl after).map (fun request => (request.addr, request.size)) =
        [(64, 64), (128, 64), (192, 0)] ∧
      ¬ Partitions lines64 (Ctrl.newOp 0 64 64 128 .READ 0) (newRequests emptyCtrl after) := by
  refine ⟨_, rfl, rfl, ?_⟩
  intro cut
  have third := cut.nonempty ⟨2, { Ctrl.newOp 0 64 64 128 .READ 0 with splitRqst := 3 }, 192, 0, _, 0⟩
    (.tail _ (.tail _ (.head _)))
  exact Nat.lt_irrefl 0 third

end Requests
end RevCPU.MemCtrl
