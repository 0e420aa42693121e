import RevCPU.Ecall
/-!
The write call. The guest's bytes are read in pieces of 8, 4, 2 and 1 and joined as C strings, so a zero in
them ends its piece; only the last byte of all may be zero, for the string shows one behind its end.
-/
namespace RevCPU.Ecall
open Feature InstTable RegFile Proc Mem CString

variable {σ ι : Type} {machine : Machine (Shared σ) ι} {env : Env σ} {inst : RevInst}
  {proc : RevProc (Shared σ)} {file : CtxFile}

theorem chunkLen_le {remaining : BitVec 64} (more : remaining ≠ 0) :
    1 ≤ chunkLen remaining ∧ chunkLen remaining ≤ 8 ∧ chunkLen remaining ≤ remaining.toNat := by
  have positive : remaining.toNat ≠ 0 := fun zero => more (BitVec.eq_of_toNat_eq zero)
  unfold chunkLen
  split
  · omega
  · split
    · rename_i other within
      have two : remaining.toNat ≠ 1 := fun one => other (BitVec.eq_of_toNat_eq one.symm)
      omega
    · split
      · rename_i beyond within
        have many : ¬ remaining.toNat ≤ 3 := beyond
        omega
      · rename_i beyond
        have many : ¬ remaining.toNat ≤ 7 := beyond
        omega

/-- The characters taken so far: those joined and those of the last piece. -/
def taken (shared : Shared σ) : List Byte := shared.ecallString ++ bufString shared.ecallBuf

theorem taken_clean {shared : Shared σ} (clean : Clean shared) : taken shared = [] := by
  have none : bufString shared.ecallBuf = [] := by
    rw [bufString, shown, List.range_succ_eq_map, List.map_cons, clean.buf]
    rfl
  rw [taken, clean.string, none]
  rfl

theorem solid_taken {shared : Shared σ} (solid : Solid shared.ecallString) : Solid (taken shared) :=
  solid.append (cString_solid _)

-- The NUL behind a piece ends it, whatever the rest of the buffer holds.
theorem bufString_piece {buf : Buffer} {bytes : Nat → Byte} {len : Nat} (short : len ≤ 8)
    (same : ∀ index < len, buf index = bytes index) :
    bufString (Function.update buf len 0) = cString (shown bytes len) := by
  have parts : shown (Function.update buf len 0) 64 =
      shown bytes len ++ 0 ::
        shown (fun index => Function.update buf len 0 (len + 1 + index)) (63 - len) := by
    rw [show 64 = len + 1 + (63 - len) by omega, shown_add, shown_succ, Function.update_self]
    have front : shown (Function.update buf len 0) len = shown bytes len := by
      apply List.map_congr_left
      intro index member
      have inside := List.mem_range.mp member
      rw [Function.update_of_ne (Nat.ne_of_lt inside), same index inside]
    rw [front, List.append_assoc]
    congr 2
  rw [bufString, parts, cString_zero]

section Code
variable (code : (ecallCode env.feature file).setWidth 32 = 64#32)
include code

theorem code_not_clone : (ecallCode env.feature file).setWidth 32 ≠ 220#32 := by
  rw [code]
  decide

theorem code_not_exit : (ecallCode env.feature file).setWidth 32 ≠ 93#32 := by
  rw [code]
  decide

variable (machine inst)

theorem ecallOf_write (proc : RevProc (Shared σ)) : ecallOf env machine proc file inst =
    ecallWrite env (raise (calling machine env) inst file) inst proc.memory := by
  unfold ecallOf otherEcall
  rw [code]
  rfl

structure Written (env : Env σ) (machine : Machine (Shared σ) ι) (inst : RevInst) (file : CtxFile)
    (data : List Byte) (before : Shared σ) (served : RevProc.Served (Shared σ)) : Prop where
  calls : served.proc.memory.calls =
    before.calls ++ [.write ((file.regs.x64 10).setWidth 32) data (file.regs.x64 12)]
  pc : getPC env.feature served.file.regs = getPC env.feature (raise (calling machine env) inst file).regs
  bytesRead : served.proc.memory.ecallBytesRead = 0
  string : served.proc.memory.ecallString = []
  buf : served.proc.memory.ecallBuf 0 = 0
  board : served.file.board (bankOf env.feature false) 10 = false

omit code in
theorem Written.of_regs {next : CtxFile} {data : List Byte} {before after : Shared σ}
    {served : RevProc.Served (Shared σ)} (written : Written env machine inst next data after served)
    (regs : next.regs = file.regs) (calls : after.calls = before.calls) :
    Written env machine inst file data before served := by
  obtain ⟨asked, pc, bytesRead, string, buf, board⟩ := written
  rw [calls, regs] at asked
  rw [raise, regs] at pc
  exact ⟨asked, pc, bytesRead, string, buf, board⟩

omit code in
theorem getPC_setX64 (feature : RevFeature) (regs : RevRegFile) (index : BitVec 8) (value : BitVec 64) :
    getPC feature (regs.setX64 index value) = getPC feature regs := by
  unfold getPC RevRegFile.setX64
  by_cases zero : index = 0
  · rw [if_pos zero]
  · rw [if_neg zero]

theorem write_last (whole : proc.memory.ecallBytesRead.setWidth 64 = file.regs.x64 12) :
    ∃ served, turn (calling machine env) inst proc file = .ok served ∧ served.status = .SUCCESS ∧
      Written env machine inst file ((taken proc.memory ++ [0]).take (file.regs.x64 12).toNat) proc.memory
        served := by
  have called := ecallOf_write machine inst code proc
  unfold ecallWrite at called
  simp only [raise_x64] at called
  rw [if_pos whole] at called
  refine ⟨_, turn_success (code_not_clone code) (code_not_exit code) called rfl, rfl, ?_⟩
  constructor
  · rfl
  · exact getPC_setX64 _ _ _ _
  · rfl
  · rfl
  · rfl
  · change (dependencyClearReg env.feature _ 10 false).board _ 10 = false
    unfold dependencyClearReg setBit
    rw [if_pos (by decide)]
    dsimp only
    rw [Function.update_self, Function.update_self]

/-- The string that the next piece follows. -/
def joined (shared : Shared σ) : List Byte :=
  if 0 < shared.ecallBytesRead then taken shared else shared.ecallString

def nextPiece (env : Env σ) (file : CtxFile) (shared : Shared σ) : Option (Shared σ × Bool) :=
  readBuf env { shared with ecallString := joined shared }
    (file.regs.x64 11 + shared.ecallBytesRead.setWidth 64)
    (chunkLen (file.regs.x64 12 - shared.ecallBytesRead.setWidth 64))

/-- What an execution in the middle leaves, from what the ReadVal left. -/
structure Piece (file : CtxFile) (before : Shared σ) (read : Shared σ) (served : RevProc.Served (Shared σ)) :
    Prop where
  status : served.status = .CONTINUE
  regs : served.file.regs = file.regs
  memory : served.proc.memory =
    { read with
        ecallBuf := Function.update read.ecallBuf
          (chunkLen (file.regs.x64 12 - before.ecallBytesRead.setWidth 64)) 0
        ecallBytesRead := read.ecallBytesRead + BitVec.ofNat 32
          (chunkLen (file.regs.x64 12 - before.ecallBytesRead.setWidth 64)) }

section More
variable (more : proc.memory.ecallBytesRead.setWidth 64 ≠ file.regs.x64 12)
include more

theorem write_piece {read : Shared σ} {hazard : Bool}
    (reads : nextPiece env file proc.memory = some (read, hazard)) :
    ∃ served, turn (calling machine env) inst proc file = .ok served ∧
      Piece file proc.memory read served := by
  have called := ecallOf_write machine inst code proc
  unfold ecallWrite at called
  simp only [raise_x64] at called
  unfold nextPiece joined taken at reads
  rw [if_neg more, reads] at called
  exact ⟨_, turn_continue (code_not_clone code) (code_not_exit code) called rfl rfl, rfl, rfl, rfl⟩

theorem write_stuck (stuck : nextPiece env file proc.memory = none) :
    turn (calling machine env) inst proc file = .error .fatal := by
  have called := ecallOf_write machine inst code proc
  unfold ecallWrite at called
  simp only [raise_x64] at called
  unfold nextPiece joined taken at stuck
  rw [if_neg more, stuck] at called
  exact turn_none (code_not_clone code) (code_not_exit code) called

end More

end Code

theorem code_of_regs {next : CtxFile} (regs : next.regs = file.regs)
    (code : (ecallCode env.feature file).setWidth 32 = 64#32) :
    (ecallCode env.feature next).setWidth 32 = 64#32 := by
  rw [← code, ecallCode, ecallCode, regs]

theorem nextPiece_keeps {shared read : Shared σ} {hazard : Bool}
    (reads : nextPiece env file shared = some (read, hazard)) :
    read.ecallString = joined shared ∧ read.calls = shared.calls := by
  unfold nextPiece readBuf at reads
  split at reads
  · cases reads
  · cases reads
    exact ⟨rfl, rfl⟩

-- However the reads come out, what the host is shown has no zero but the one at its end.
theorem write_calls {earlier : List (RevProc.Served (Shared σ))} {last : RevProc.Served (Shared σ)}
    (completes : Completes (calling machine env) inst proc file earlier last)
    (code : (ecallCode env.feature file).setWidth 32 = 64#32) (solid : Solid proc.memory.ecallString) :
    (file.regs.x64 12).toNat < 2 ^ 32 ∧ ∃ string : List Byte, Solid string ∧ last.proc.memory.calls =
      proc.memory.calls ++ [.write ((file.regs.x64 10).setWidth 32)
        ((string ++ [0]).take (file.regs.x64 12).toNat) (file.regs.x64 12)] := by
  induction completes with
  | @last proc file served turned done =>
    by_cases whole : proc.memory.ecallBytesRead.setWidth 64 = file.regs.x64 12
    · obtain ⟨other, turned', -, written⟩ :=
        write_last machine inst code whole
      obtain rfl : served = other := Except.ok.inj (turned.symm.trans turned')
      refine ⟨?_, taken proc.memory, solid_taken solid, written.calls⟩
      rw [← whole, BitVec.toNat_setWidth_of_le (by decide)]
      exact proc.memory.ecallBytesRead.isLt
    · cases reads : nextPiece env file proc.memory with
      | none =>
        rw [write_stuck machine inst code whole reads] at turned
        cases turned
      | some result =>
        obtain ⟨other, turned', piece⟩ := write_piece machine inst code whole reads
        obtain rfl : served = other := Except.ok.inj (turned.symm.trans turned')
        rw [piece.status] at done
        cases done
  | @again proc file next last earlier turned more rest ih =>
    have part : proc.memory.ecallBytesRead.setWidth 64 ≠ file.regs.x64 12 := by
      intro whole
      obtain ⟨other, turned', finished, -⟩ := write_last machine inst code whole
      obtain rfl : next = other := Except.ok.inj (turned.symm.trans turned')
      exact more finished
    cases reads : nextPiece env file proc.memory with
    | none =>
      rw [write_stuck machine inst code part reads] at turned
      cases turned
    | some result =>
      obtain ⟨read, hazard⟩ := result
      obtain ⟨other, turned', piece⟩ := write_piece machine inst code part reads
      obtain rfl : next = other := Except.ok.inj (turned.symm.trans turned')
      obtain ⟨string, calls⟩ := nextPiece_keeps reads
      have kept : next.proc.memory.ecallString = joined proc.memory := by
        rw [piece.memory]
        exact string
      have later := ih (code_of_regs piece.regs code) (by
        rw [kept, joined]
        split
        · exact solid_taken solid
        · exact solid)
      rw [piece.regs] at later
      have same : next.proc.memory.calls = proc.memory.calls := by
        rw [piece.memory]
        exact calls
      rwa [same] at later

/-- Between two executions: what was taken is the front of the guest's bytes as a C string. -/
structure Midway (ok : σ → Prop) (bytes : Nat → Byte) (count : Nat) (shared : Shared σ) : Prop where
  readable : ok shared.memory
  within : shared.ecallBytesRead.toNat ≤ count
  fresh : shared.ecallBytesRead = 0 → bufString shared.ecallBuf = []
  front : taken shared = cString (shown bytes shared.ecallBytesRead.toNat)

theorem Clean.midway {ok : σ → Prop} {shared : Shared σ} (clean : Clean shared)
    (readable : ok shared.memory) (bytes : Nat → Byte) (count : Nat) : Midway ok bytes count shared := by
  have none := taken_clean clean
  constructor
  · exact readable
  · rw [clean.bytesRead]
    exact Nat.zero_le _
  · intro
    exact (List.append_eq_nil_iff.mp none).2
  · rw [none, clean.bytesRead]
    rfl

section Serves
variable {ok : σ → Prop} {bytes : Nat → Byte}
  (serves : Serves env ok (file.regs.x64 11) bytes (file.regs.x64 12).toNat)
  (small : (file.regs.x64 12).toNat < 2 ^ 32)
  (inner : ∀ index, index + 1 < (file.regs.x64 12).toNat → bytes index ≠ 0)
include serves small inner

theorem Midway.piece (midway : Midway ok bytes (file.regs.x64 12).toNat proc.memory)
    (code : (ecallCode env.feature file).setWidth 32 = 64#32)
    (more : proc.memory.ecallBytesRead.toNat < (file.regs.x64 12).toNat) :
    ∃ served, turn (calling machine env) inst proc file = .ok served ∧ served.status = .CONTINUE ∧
      served.file.regs = file.regs ∧ served.proc.memory.calls = proc.memory.calls ∧
      Midway ok bytes (file.regs.x64 12).toNat served.proc.memory ∧
      proc.memory.ecallBytesRead.toNat < served.proc.memory.ecallBytesRead.toNat := by
  obtain ⟨readable, within, fresh, front⟩ := midway
  have wide : (proc.memory.ecallBytesRead.setWidth 64).toNat = proc.memory.ecallBytesRead.toNat :=
    BitVec.toNat_setWidth_of_le (by decide)
  have part : proc.memory.ecallBytesRead.setWidth 64 ≠ file.regs.x64 12 := by
    intro whole
    rw [← whole, wide] at more
    exact Nat.lt_irrefl _ more
  have remains : (file.regs.x64 12 - proc.memory.ecallBytesRead.setWidth 64).toNat =
      (file.regs.x64 12).toNat - proc.memory.ecallBytesRead.toNat := by
    rw [BitVec.toNat_sub_of_le, wide]
    rw [BitVec.le_def, wide]
    exact within
  have rest : file.regs.x64 12 - proc.memory.ecallBytesRead.setWidth 64 ≠ 0 := by
    intro none
    rw [none] at remains
    change 0 = _ at remains
    omega
  obtain ⟨some_byte, eight, fits⟩ := chunkLen_le rest
  rw [remains] at fits
  obtain ⟨buf, memory, hazard, read, stays, same⟩ := serves.readBuf
    (show ok { proc.memory with ecallString := joined proc.memory }.memory from readable) some_byte eight
    (show proc.memory.ecallBytesRead.toNat + _ ≤ _ by omega)
  rw [BitVec.ofNat_toNat] at read
  obtain ⟨served, turned, status, regs, after⟩ := write_piece machine inst code part read
  have counted : served.proc.memory.ecallBytesRead.toNat = proc.memory.ecallBytesRead.toNat +
      chunkLen (file.regs.x64 12 - proc.memory.ecallBytesRead.setWidth 64) := by
    rw [after]
    dsimp only
    rw [BitVec.toNat_add, BitVec.toNat_ofNat]
    omega
  have joins : joined proc.memory = taken proc.memory := by
    unfold joined
    split
    · rfl
    · rename_i first
      have zero : proc.memory.ecallBytesRead = 0 := by
        apply BitVec.eq_of_toNat_eq
        have none : ¬ 0 < proc.memory.ecallBytesRead.toNat := first
        change _ = 0
        omega
      rw [taken, fresh zero, List.append_nil]
  refine ⟨served, turned, status, regs, ?_, ?_, by omega⟩
  · rw [after]
  · constructor
    · rw [after]
      exact stays
    · omega
    · intro zero
      rw [zero] at counted
      change 0 = _ at counted
      omega
    · have whole : Solid (shown bytes proc.memory.ecallBytesRead.toNat) :=
        (solid_shown _ _).mpr fun index inside => inner index (by omega)
      have before : taken proc.memory = shown bytes proc.memory.ecallBytesRead.toNat := by
        rw [front, whole.cString_self]
      rw [counted, shown_add, cString_append whole, ← before, ← joins, taken, after]
      dsimp only
      rw [bufString_piece eight]
      intro index inside
      rw [same, if_pos inside]

theorem Midway.completes (midway : Midway ok bytes (file.regs.x64 12).toNat proc.memory)
    (code : (ecallCode env.feature file).setWidth 32 = 64#32) :
    ∃ earlier last, Completes (calling machine env) inst proc file earlier last ∧
      (∀ served ∈ earlier, served.file.regs = file.regs) ∧
      Written env machine inst file (shown bytes (file.regs.x64 12).toNat) proc.memory last := by
  induction counted : (file.regs.x64 12).toNat - proc.memory.ecallBytesRead.toNat
    using Nat.strong_induction_on generalizing proc file with
  | h left ih =>
    have wide : (proc.memory.ecallBytesRead.setWidth 64).toNat = proc.memory.ecallBytesRead.toNat :=
      BitVec.toNat_setWidth_of_le (by decide)
    by_cases whole : proc.memory.ecallBytesRead.setWidth 64 = file.regs.x64 12
    · obtain ⟨served, turned, done, written⟩ := write_last machine inst code whole
      refine ⟨[], served, .last turned done, by simp, ?_⟩
      have shows := take_cString inner
      rw [midway.front, ← wide, whole, shows] at written
      exact written
    · have more : proc.memory.ecallBytesRead.toNat < (file.regs.x64 12).toNat := by
        have other : proc.memory.ecallBytesRead.toNat ≠ (file.regs.x64 12).toNat := fun same =>
          whole (BitVec.eq_of_toNat_eq (wide.trans same))
        have within := midway.within
        omega
      obtain ⟨next, turned, status, regs, calls, later, further⟩ := midway.piece serves small inner code more
      have shorter : (next.file.regs.x64 12).toNat - next.proc.memory.ecallBytesRead.toNat < left := by
        rw [regs]
        omega
      rw [← regs] at serves small inner later
      obtain ⟨earlier, last, rest, same, written⟩ := ih _ shorter serves small inner later
        (code_of_regs regs code) rfl
      refine ⟨next :: earlier, last, .again turned (by rw [status]; decide) rest, ?_, ?_⟩
      · intro served member
        rcases List.mem_cons.mp member with rfl | member
        · exact regs
        · exact (same served member).trans regs
      · rw [regs] at written
        exact written.of_regs machine inst regs calls

end Serves

/-- From clean buffers the call completes as `Written` says exactly if the length fits in 32 bits and no
byte but the last one is zero. -/
theorem write_passes_bytes_iff {ok : σ → Prop} {bytes : Nat → Byte}
    (code : (ecallCode env.feature file).setWidth 32 = 64#32) (clean : Clean proc.memory)
    (readable : ok proc.memory.memory)
    (serves : Serves env ok (file.regs.x64 11) bytes (file.regs.x64 12).toNat) :
    (∃ earlier last, Completes (calling machine env) inst proc file earlier last ∧
      (∀ served ∈ earlier, served.file.regs = file.regs) ∧
      Written env machine inst file (shown bytes (file.regs.x64 12).toNat) proc.memory last) ↔
    (file.regs.x64 12).toNat < 2 ^ 32 ∧
      ∀ index, index + 1 < (file.regs.x64 12).toNat → bytes index ≠ 0 := by
  constructor
  · rintro ⟨earlier, last, completes, -, written⟩
    have solid : Solid proc.memory.ecallString := by
      rw [clean.string]
      exact List.forall_mem_nil _
    obtain ⟨small, string, solid, calls⟩ := write_calls completes code solid
    rw [written.calls] at calls
    have shows := List.append_cancel_left calls
    simp only [List.cons.injEq, HostCall.write.injEq, true_and, and_true] at shows
    exact ⟨small, inner_of_take solid shows.symm⟩
  · rintro ⟨small, inner⟩
    exact (clean.midway readable bytes _).completes serves small inner code

section Program
open MemRefine Prefetch

/-- A write of the bytes from an address on. -/
def writeRegs (addr nbytes : BitVec 64) : BitVec 8 → BitVec 64
  | 10 => 1
  | 11 => addr
  | 12 => nbytes
  | 17 => 64
  | _ => 0

theorem write_passes_bytes_eight :
    ∃ earlier last, Completes (calling guestMachine guestEnv) default (guestProc (writeRegs 1310720 8))
        (guestFile (writeRegs 1310720 8)) earlier last ∧
      (∀ served ∈ earlier, served.file.regs = (guestFile (writeRegs 1310720 8)).regs) ∧
      Written guestEnv guestMachine default (guestFile (writeRegs 1310720 8))
        (shown (fun index => byteAt program (1310720 + index)) 8)
        (guestProc (writeRegs 1310720 8)).memory last :=
  (write_passes_bytes_iff (by decide) (guest_clean _) program_unseen
    (serves_program (by decide) (by decide))).mpr ⟨by decide, fun index inside => by
      have seven : ∀ place : Fin 7, byteAt program (1310720 + place) ≠ 0 := by decide
      exact seven ⟨index, Nat.lt_of_succ_lt_succ inside⟩⟩

-- A zero in front of another byte: the host is not shown the second one.
theorem write_drops_zero :
    byteAt program 1310719 = 0 ∧ byteAt program 1310720 = 1 ∧
    ¬ ∃ earlier last, Completes (calling guestMachine guestEnv) default (guestProc (writeRegs 1310719 2))
        (guestFile (writeRegs 1310719 2)) earlier last ∧
      Written guestEnv guestMachine default (guestFile (writeRegs 1310719 2))
        (shown (fun index => byteAt program (1310719 + index)) 2)
        (guestProc (writeRegs 1310719 2)).memory last := by
  refine ⟨by decide, by decide, ?_⟩
  rintro ⟨earlier, last, completes, written⟩
  obtain ⟨-, string, solid, calls⟩ := write_calls completes (by decide) (List.forall_mem_nil _)
  rw [written.calls] at calls
  have shows := List.append_cancel_left calls
  simp only [List.cons.injEq, HostCall.write.injEq, true_and, and_true] at shows
  exact inner_of_take solid shows.symm 0 (by decide) (by decide)

end Program
end RevCPU.Ecall
