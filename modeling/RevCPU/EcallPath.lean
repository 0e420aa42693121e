import RevCPU.Ecall
/-!
chdir, openat and mkdirat. The path is read byte by byte, and `ECALL_buf[0]` says where in it the call is:
a zero there with no string yet is the first execution. An empty path is therefore read again and again, and
openat reads where the low half of its address points.
-/
namespace RevCPU.Ecall
open Feature InstTable RegFile Proc Mem CString

inductive PathCall where
  | chdir | openat | mkdirat
deriving DecidableEq

namespace PathCall

/-- The key in the table `Ecalls`. -/
def code : PathCall → BitVec 32
  | chdir => 49
  | openat => 56
  | mkdirat => 34

def pathname (regs : RevRegFile) : PathCall → BitVec 64
  | chdir => regs.x64 10
  | openat => regs.x64 11
  | mkdirat => regs.x64 11

def addr (regs : RevRegFile) : PathCall → BitVec 64
  | chdir => regs.x64 10
  | openat => ((regs.x64 11).setWidth 32).signExtend 64
  | mkdirat => regs.x64 11

def marks : PathCall → Bool
  | chdir => false
  | openat => true
  | mkdirat => true

def call (regs : RevRegFile) (path : List Byte) : PathCall → HostCall
  | chdir => .chdir path
  | openat => .openat path
  | mkdirat => .mkdirat ((regs.x64 10).setWidth 32) path ((regs.x64 12).setWidth 32)

theorem addr_iff (which : PathCall) (regs : RevRegFile) : which.addr regs = which.pathname regs ↔
    (which = .openat → ((regs.x64 11).setWidth 32).signExtend 64 = regs.x64 11) := by
  cases which with
  | chdir => exact iff_of_true rfl nofun
  | openat => exact ⟨fun same _ => same, fun same => same rfl⟩
  | mkdirat => exact iff_of_true rfl nofun

end PathCall

variable {σ ι : Type} {machine : Machine (Shared σ) ι} {env : Env σ} {inst : RevInst}
  {proc : RevProc (Shared σ)} {file : CtxFile} {which : PathCall}

theorem ecallOf_path (machine : Machine (Shared σ) ι) (inst : RevInst) (proc : RevProc (Shared σ))
    (code : (ecallCode env.feature file).setWidth 32 = which.code) :
    ecallOf env machine proc file inst =
      readPath env (raise (calling machine env) inst file) inst proc.memory (which.addr file.regs)
        which.marks fun path => which.call file.regs path := by
  unfold ecallOf otherEcall
  rw [code]
  cases which with
  | chdir =>
    change ecallChdir env _ inst proc.memory = _
    rw [ecallChdir, raise_x64]
    rfl
  | openat =>
    change ecallOpenat env _ inst proc.memory = _
    rw [ecallOpenat, raise_x64]
    rfl
  | mkdirat =>
    change ecallMkdirat env _ inst proc.memory = _
    rw [ecallMkdirat, raise_x64, raise_x64, raise_x64]
    rfl

def Ended (shared : Shared σ) : Prop := shared.ecallBuf 0 = 0 ∧ 0 < shared.ecallString.length

/-- The string so far, with the byte in the buffer. -/
def pathString (shared : Shared σ) : List Byte :=
  if shared.ecallBuf 0 ≠ 0 then shared.ecallString ++ [shared.ecallBuf 0] else shared.ecallString

def nextByte (env : Env σ) (addr : BitVec 64) (shared : Shared σ) : Option (Shared σ × Bool) :=
  readBuf env { shared with ecallString := pathString shared }
    (addr + BitVec.ofNat 64 (pathString shared).length) 1

theorem nextByte_first {addr : BitVec 64} {shared : Shared σ} (first : shared.ecallBuf 0 = 0)
    (empty : shared.ecallString = []) : nextByte env addr shared = readBuf env shared addr 1 := by
  have string : pathString shared = shared.ecallString := if_neg (not_not.mpr first)
  rw [nextByte, string, empty, List.length_nil, BitVec.add_zero, ← empty]

/-- What the last execution leaves; `path` is the string and `base` where the guest has it. -/
structure Passed (which : PathCall) (file : CtxFile) (path : List Byte) (before : Shared σ)
    (served : RevProc.Served (Shared σ)) : Prop where
  calls : served.proc.memory.calls = before.calls ++ [which.call file.regs path]
  reads : served.proc.memory.reads = before.reads ++
    shown (fun index => (which.pathname file.regs + BitVec.ofNat 64 index, 1)) (path.length + 1)
  string : served.proc.memory.ecallString = []
  buf : served.proc.memory.ecallBuf 0 = 0

section Code
variable (code : (ecallCode env.feature file).setWidth 32 = which.code)
include code

theorem path_not_clone : (ecallCode env.feature file).setWidth 32 ≠ 220#32 := by
  rw [code]
  cases which <;> exact (by decide)

theorem path_not_exit : (ecallCode env.feature file).setWidth 32 ≠ 93#32 := by
  rw [code]
  cases which <;> exact (by decide)

variable (machine inst)

theorem path_ended (ended : Ended proc.memory) :
    ∃ served, turn (calling machine env) inst proc file = .ok served ∧ served.status = .SUCCESS ∧
      served.proc.memory = { proc.memory with
        ecallBuf := Function.update proc.memory.ecallBuf 0 0, ecallString := []
        calls := proc.memory.calls ++
          [which.call file.regs (cString (proc.memory.ecallString ++ [0]))] } := by
  have called := ecallOf_path machine inst proc code
  unfold readPath at called
  dsimp only at called
  rw [if_neg (not_not.mpr ended.1), if_pos ended.2, ended.1] at called
  exact ⟨_, turn_success (path_not_clone code) (path_not_exit code) called rfl, rfl, rfl⟩

section More
variable (more : ¬ Ended proc.memory)
include more

theorem path_byte {read : Shared σ} {hazard : Bool}
    (reads : nextByte env (which.addr file.regs) proc.memory = some (read, hazard)) :
    ∃ served, turn (calling machine env) inst proc file = .ok served ∧ served.status = .CONTINUE ∧
      served.file.regs = file.regs ∧ served.proc.memory = read := by
  have called := ecallOf_path machine inst proc code
  unfold readPath at called
  dsimp only at called
  by_cases middle : proc.memory.ecallBuf 0 ≠ 0
  · unfold nextByte pathString at reads
    rw [if_pos middle] at reads
    rw [if_pos middle, reads] at called
    exact ⟨_, turn_continue (path_not_clone code) (path_not_exit code) called rfl rfl, rfl, rfl, rfl⟩
  · have none : ¬ 0 < proc.memory.ecallString.length := fun some => more ⟨not_not.mp middle, some⟩
    rw [nextByte_first (not_not.mp middle) (List.length_eq_zero_iff.mp (by omega))] at reads
    rw [if_neg middle, if_neg none, reads] at called
    exact ⟨_, turn_continue (path_not_clone code) (path_not_exit code) called rfl rfl, rfl, rfl, rfl⟩

theorem path_stuck (stuck : nextByte env (which.addr file.regs) proc.memory = none) :
    turn (calling machine env) inst proc file = .error .fatal := by
  have called := ecallOf_path machine inst proc code
  unfold readPath at called
  dsimp only at called
  by_cases middle : proc.memory.ecallBuf 0 ≠ 0
  · unfold nextByte pathString at stuck
    rw [if_pos middle] at stuck
    rw [if_pos middle, stuck] at called
    exact turn_none (path_not_clone code) (path_not_exit code) called
  · have none : ¬ 0 < proc.memory.ecallString.length := fun some => more ⟨not_not.mp middle, some⟩
    rw [nextByte_first (not_not.mp middle) (List.length_eq_zero_iff.mp (by omega))] at stuck
    rw [if_neg middle, if_neg none, stuck] at called
    exact turn_none (path_not_clone code) (path_not_exit code) called

end More

theorem path_not_ended {served : RevProc.Served (Shared σ)}
    (turned : turn (calling machine env) inst proc file = .ok served)
    (unfinished : served.status ≠ .SUCCESS) :
    ¬ Ended proc.memory := by
  intro ended
  obtain ⟨other, turned', finished, -⟩ := path_ended machine inst code ended
  obtain rfl : served = other := Except.ok.inj (turned.symm.trans turned')
  exact unfinished finished

theorem path_again {served : RevProc.Served (Shared σ)}
    (turned : turn (calling machine env) inst proc file = .ok served)
    (unfinished : served.status ≠ .SUCCESS) :
    served.file.regs = file.regs ∧
      ∃ hazard, nextByte env (which.addr file.regs) proc.memory = some (served.proc.memory, hazard) := by
  have more := path_not_ended machine inst code turned unfinished
  cases reads : nextByte env (which.addr file.regs) proc.memory with
  | none =>
    rw [path_stuck machine inst code more reads] at turned
    cases turned
  | some result =>
    obtain ⟨other, turned', -, regs, memory⟩ := path_byte machine inst code more reads
    obtain rfl : served = other := Except.ok.inj (turned.symm.trans turned')
    exact ⟨regs, result.2, by rw [memory]⟩

theorem path_last {served : RevProc.Served (Shared σ)}
    (turned : turn (calling machine env) inst proc file = .ok served) (done : served.status = .SUCCESS) :
    Ended proc.memory ∧ served.proc.memory.reads = proc.memory.reads := by
  by_cases ended : Ended proc.memory
  · obtain ⟨other, turned', -, memory⟩ := path_ended machine inst code ended
    obtain rfl : served = other := Except.ok.inj (turned.symm.trans turned')
    exact ⟨ended, by rw [memory]⟩
  · cases reads : nextByte env (which.addr file.regs) proc.memory with
    | none =>
      rw [path_stuck machine inst code ended reads] at turned
      cases turned
    | some result =>
      obtain ⟨other, turned', unfinished, -⟩ := path_byte machine inst code ended reads
      obtain rfl : served = other := Except.ok.inj (turned.symm.trans turned')
      rw [unfinished] at done
      cases done

end Code

theorem path_code_of_regs {next : CtxFile} (regs : next.regs = file.regs)
    (code : (ecallCode env.feature file).setWidth 32 = which.code) :
    (ecallCode env.feature next).setWidth 32 = which.code := by
  rw [← code, ecallCode, ecallCode, regs]

theorem nextByte_reads {addr : BitVec 64} {shared read : Shared σ} {hazard : Bool}
    (reads : nextByte env addr shared = some (read, hazard)) :
    read.reads = shared.reads ++ [(addr + BitVec.ofNat 64 (pathString shared).length, 1)] := by
  unfold nextByte readBuf at reads
  split at reads
  · cases reads
  · cases reads
    rfl

theorem path_reads_grow {earlier : List (RevProc.Served (Shared σ))} {last : RevProc.Served (Shared σ)}
    (completes : Completes (calling machine env) inst proc file earlier last)
    (code : (ecallCode env.feature file).setWidth 32 = which.code) :
    proc.memory.reads <+: last.proc.memory.reads := by
  induction completes with
  | last turned done =>
    rw [(path_last machine inst code turned done).2]
  | again turned unfinished rest ih =>
    obtain ⟨regs, hazard, reads⟩ := path_again machine inst code turned unfinished
    have further := ih (path_code_of_regs regs code)
    rw [nextByte_reads reads] at further
    exact (List.prefix_append _ _).trans further

section Serves
variable {ok : σ → Prop} {bytes : Nat → Byte} {len : Nat}

-- The state behind the terminator of an empty path is the one in front of it.
theorem empty_path_waits (which : PathCall) {earlier : List (RevProc.Served (Shared σ))}
    {last : RevProc.Served (Shared σ)}
    (completes : Completes (calling machine env) inst proc file earlier last)
    (code : (ecallCode env.feature file).setWidth 32 = which.code)
    (serves : Serves env ok (which.addr file.regs) bytes 1) (terminated : bytes 0 = 0)
    (readable : ok proc.memory.memory) (string : proc.memory.ecallString = [])
    (buf : proc.memory.ecallBuf 0 = 0) : False := by
  induction completes with
  | @last proc file served turned done =>
    have ended := (path_last machine inst code turned done).1.2
    rw [string] at ended
    exact Nat.lt_irrefl 0 ended
  | @again proc file next last earlier turned unfinished rest ih =>
    obtain ⟨regs, hazard, reads⟩ := path_again machine inst code turned unfinished
    rw [nextByte_first buf string] at reads
    obtain ⟨after, memory, _, read, stays, same⟩ :=
      serves.readBuf readable (Nat.le_refl 1) (by decide) (show 0 + 1 ≤ 1 by decide)
    rw [BitVec.add_zero, reads] at read
    have memory := congrArg Prod.fst (Option.some.inj read)
    dsimp only at memory
    apply ih (path_code_of_regs regs code)
    · rw [regs]
      exact serves
    · rw [memory]
      exact stays
    · rw [memory]
      exact string
    · rw [memory]
      exact (same 0).trans terminated

/-- Between two executions: bytes up to the one in the buffer have been read. -/
structure Inside (ok : σ → Prop) (bytes : Nat → Byte) (base : BitVec 64) (before shared : Shared σ)
    (index : Nat) : Prop where
  readable : ok shared.memory
  string : shared.ecallString = shown bytes index
  buf : shared.ecallBuf 0 = bytes index
  reads : shared.reads =
    before.reads ++ shown (fun place => (base + BitVec.ofNat 64 place, 1)) (index + 1)
  calls : shared.calls = before.calls

section Path
variable (code : (ecallCode env.feature file).setWidth 32 = which.code)
  (serves : Serves env ok (which.addr file.regs) bytes (len + 1))
  (solid : ∀ index < len, bytes index ≠ 0)
include code serves

variable (machine inst)

theorem Inside.first (clean : Clean proc.memory) (readable : ok proc.memory.memory) :
    ∃ next, turn (calling machine env) inst proc file = .ok next ∧ next.status = .CONTINUE ∧
      next.file.regs = file.regs ∧
      Inside ok bytes (which.addr file.regs) proc.memory next.proc.memory 0 := by
  have more : ¬ Ended proc.memory := by
    rintro ⟨-, some⟩
    rw [clean.string] at some
    exact Nat.lt_irrefl 0 some
  obtain ⟨buf, memory, hazard, read, stays, same⟩ :=
    serves.readBuf readable (Nat.le_refl 1) (by decide) (show 0 + 1 ≤ len + 1 by omega)
  rw [BitVec.add_zero] at read
  obtain ⟨next, turned, status, regs, after⟩ :=
    path_byte machine inst code more ((nextByte_first clean.buf clean.string).trans read)
  refine ⟨next, turned, status, regs, ?_⟩
  constructor
  · rw [after]
    exact stays
  · rw [after]
    exact clean.string
  · rw [after]
    exact same 0
  · rw [after, shown_succ, BitVec.add_zero]
    rfl
  · rw [after]

variable {before : Shared σ} {index : Nat}
include solid

theorem Inside.step (here : Inside ok bytes (which.addr file.regs) before proc.memory index)
    (middle : index < len) :
    ∃ next, turn (calling machine env) inst proc file = .ok next ∧ next.status = .CONTINUE ∧
      next.file.regs = file.regs ∧
      Inside ok bytes (which.addr file.regs) before next.proc.memory (index + 1) := by
  have char : proc.memory.ecallBuf 0 ≠ 0 := by
    rw [here.buf]
    exact solid index middle
  have string : pathString proc.memory = shown bytes (index + 1) := by
    rw [pathString, if_pos char, here.string, here.buf, shown_succ]
  obtain ⟨buf, memory, hazard, read, stays, same⟩ :=
    serves.readBuf
      (show ok { proc.memory with ecallString := pathString proc.memory }.memory from here.readable)
      (Nat.le_refl 1) (by decide) (show index + 1 + 1 ≤ len + 1 by omega)
  have long : (pathString proc.memory).length = index + 1 := by rw [string, length_shown]
  rw [← long] at read
  obtain ⟨next, turned, status, regs, after⟩ :=
    path_byte machine inst code (fun ended => char ended.1) read
  refine ⟨next, turned, status, regs, ?_⟩
  constructor
  · rw [after]
    exact stays
  · rw [after]
    exact string
  · rw [after]
    exact same 0
  · rw [after, shown_succ, ← List.append_assoc, ← here.reads, ← long]
  · rw [after]
    exact here.calls

theorem Inside.completes (here : Inside ok bytes (which.addr file.regs) before proc.memory index)
    (within : index ≤ len) (terminated : bytes len = 0) (nonempty : 0 < len)
    (same : which.addr file.regs = which.pathname file.regs) :
    ∃ earlier last, Completes (calling machine env) inst proc file earlier last ∧
      Passed which file (shown bytes len) before last := by
  induction left : len - index generalizing proc file index with
  | zero =>
    obtain rfl : index = len := by omega
    have ended : Ended proc.memory := by
      constructor
      · rw [here.buf, terminated]
      · rw [here.string, length_shown]
        exact nonempty
    obtain ⟨last, turned, done, after⟩ := path_ended machine inst code ended
    refine ⟨[], last, .last turned done, ?_⟩
    constructor
    · rw [after]
      dsimp only
      rw [here.calls, here.string, cString_zero, ((solid_shown _ _).mpr solid).cString_self]
    · rw [after, length_shown, ← same]
      exact here.reads
    · rw [after]
    · rw [after]
      exact Function.update_self 0 0 proc.memory.ecallBuf
  | succ left ih =>
    obtain ⟨next, turned, status, regs, further⟩ := here.step machine inst code serves solid (by omega)
    rw [← regs] at serves further same
    obtain ⟨earlier, last, rest, passed⟩ := ih (path_code_of_regs regs code) serves further (by omega)
      same (by omega)
    refine ⟨next :: earlier, last, .again turned (by rw [status]; decide) rest, ?_⟩
    obtain ⟨calls, reads, string, buf⟩ := passed
    rw [regs] at calls reads
    exact ⟨calls, reads, string, buf⟩

end Path
end Serves

/-- From clean buffers the call completes as `Passed` says exactly if the path has a character and, for
openat, the address is the sign extension of its low half. -/
theorem path_passes_string_iff (which : PathCall) {ok : σ → Prop} {bytes : Nat → Byte} {len : Nat}
    (code : (ecallCode env.feature file).setWidth 32 = which.code) (clean : Clean proc.memory)
    (readable : ok proc.memory.memory)
    (serves : Serves env ok (which.pathname file.regs) bytes (len + 1))
    (solid : ∀ index < len, bytes index ≠ 0) (terminated : bytes len = 0) :
    (∃ earlier last, Completes (calling machine env) inst proc file earlier last ∧
      Passed which file (shown bytes len) proc.memory last) ↔
    0 < len ∧ (which = .openat →
      ((file.regs.x64 11).setWidth 32).signExtend 64 = file.regs.x64 11) := by
  rw [← which.addr_iff file.regs]
  constructor
  · rintro ⟨earlier, last, completes, passed⟩
    have same : which.addr file.regs = which.pathname file.regs := by
      cases completes with
      | last turned done =>
        have ended := (path_last machine inst code turned done).1.2
        rw [clean.string] at ended
        exact absurd ended (Nat.lt_irrefl 0)
      | again turned unfinished rest =>
        obtain ⟨regs, hazard, reads⟩ := path_again machine inst code turned unfinished
        have grown := path_reads_grow rest (path_code_of_regs regs code)
        rw [nextByte_reads reads, passed.reads, List.prefix_append_right_inj, pathString,
          if_neg (not_not.mpr clean.buf), clean.string, List.length_nil, shown, List.range_succ_eq_map,
          List.map_cons, List.cons_prefix_cons, BitVec.add_zero, BitVec.add_zero] at grown
        exact congrArg Prod.fst grown.1
    refine ⟨?_, same⟩
    cases len with
    | zero =>
      rw [← same] at serves
      exact (empty_path_waits which completes code serves terminated readable clean.string clean.buf).elim
    | succ len => exact Nat.succ_pos len
  · rintro ⟨nonempty, same⟩
    rw [← same] at serves
    obtain ⟨next, turned, status, regs, here⟩ :=
      Inside.first machine inst code serves clean readable
    rw [← regs] at serves here same
    obtain ⟨earlier, last, rest, passed⟩ := here.completes machine inst (path_code_of_regs regs code) serves
      solid (Nat.zero_le _) terminated nonempty same
    refine ⟨next :: earlier, last, .again turned (by rw [status]; decide) rest, ?_⟩
    obtain ⟨calls, reads, string, buf⟩ := passed
    rw [regs] at calls reads
    exact ⟨calls, reads, string, buf⟩

section Program
open MemRefine Prefetch

def pathRegs (code addr : BitVec 64) : BitVec 8 → BitVec 64
  | 10 => addr
  | 11 => addr
  | 17 => code
  | _ => 0

theorem path_passes_string_eight :
    ∃ earlier last, Completes (calling guestMachine guestEnv) default (guestProc (pathRegs 56 1310720))
        (guestFile (pathRegs 56 1310720)) earlier last ∧
      Passed .openat (guestFile (pathRegs 56 1310720))
        (shown (fun index => byteAt program (1310720 + index)) 8)
        (guestProc (pathRegs 56 1310720)).memory last :=
  (path_passes_string_iff .openat (by decide) (guest_clean _) program_unseen
    (serves_program (by decide) (by decide)) (fun index inside => by
      have eight : ∀ place : Fin 8, byteAt program (1310720 + place) ≠ 0 := by decide
      exact eight ⟨index, inside⟩) (by decide)).mpr ⟨by decide, by decide⟩

-- The empty path in front of `program`.
theorem empty_path_never_completes :
    byteAt program 1310719 = 0 ∧
    ¬ ∃ earlier last, Completes (calling guestMachine guestEnv) default
      (guestProc (pathRegs 49 1310719)) (guestFile (pathRegs 49 1310719)) earlier last := by
  refine ⟨by decide, ?_⟩
  rintro ⟨earlier, last, completes⟩
  exact empty_path_waits .chdir completes (by decide)
    (serves_program (by decide) (by decide)) (by decide) program_unseen rfl rfl

end Program
end RevCPU.Ecall
