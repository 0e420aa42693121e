import RevCPU.BootReset
import RevCPU.Program
/-!
A file that boots, on the core: what the core does from the state in which the loader and Reset leave it is
what a hart of the manual does with the program of the file.
-/
namespace RevCPU.Boot
open Elf hiding Event
open Isa hiding next
open RegFile Mem Loader MemRefine Prefetch Program Pipeline Feature Seed Execute InstTable
open BaseMem (ValidBytes)
open Proc (RevProc freshProc)

section Run
variable {file : File} {exe args : List Byte} {opts : StartOpts} {memSize tlbSize start : Nat}
  (program : BitVec 64 → Option Code)

/-- The program of a file is in the memory of a core that has booted, if it lies below the arguments. -/
theorem booted_loaded {image : Image} {argv : List (List Byte)} {loader : RevLoader} {regs : RevRegFile}
    (booted : Booted image memSize argv start loader regs)
    (coded : Program.Loaded program (contents image (tableOnly image (memSize - 1024)) image.phnum))
    (below : ∀ pc code, program pc = some code → ∀ index < code.size,
      (pc + BitVec.ofNat 64 index).toNat < memSize - 1024 - image.phdrTable + 48) :
    Program.Loaded program (byteAt loader.mem) := by
  intro pc code placed
  refine encodes_congr ?_ (coded pc code placed)
  intro index inside
  have cell := below pc code placed index inside
  rw [← booted.stack] at cell
  exact (booted.bytes _ cell).symm

end Run

section Square

def bootSquare : List (BitVec 64 × Code) :=
  [(131072, .imm (.ci .li 10 5)), (131074, .wide (.r .mul 10 10 10)),
    (131078, .wide (.s .sd 2 10 (-8))), (131082, .wide (.i .jalr 0 1 0))]

/-- The registers after Reset, without a symbol for the global pointer. -/
def bootRegs : RevRegFile := reset 2096072 0 131072 [[97]]

theorem bootSquare_loaded : Program.Loaded (listed bootSquare)
    (contents (imageOf squareFile) (tableOnly (imageOf squareFile) 2096128) (imageOf squareFile).phnum) := by
  have each : ∀ item ∈ bootSquare, item.2.Encodes (wordAt (stored (contents (imageOf squareFile)
      (tableOnly (imageOf squareFile) 2096128) (imageOf squareFile).phnum)) item.1) := by
    simp only [bootSquare, List.forall_mem_cons, List.not_mem_nil, false_imp_iff, implies_true, and_true]
    refine ⟨?_, ?_, ?_, ?_⟩
    · show (wordAt (stored _) 131072).setWidth 16 = _
      decide +kernel
    · show wordAt (stored _) 131074 = _
      decide +kernel
    · show wordAt (stored _) 131078 = _
      decide +kernel
    · show wordAt (stored _) 131082 = _
      decide +kernel
  intro pc code placed
  exact each (pc, code) (mem_of_listed placed)

theorem bootSquare_below {pc : BitVec 64} {code : Code} (placed : listed bootSquare pc = some code)
    (index : Nat) (inside : index < code.size) : (pc + BitVec.ofNat 64 index).toNat < 131086 := by
  have each : ∀ item ∈ bootSquare, ∀ index < item.2.size,
      (item.1 + BitVec.ofNat 64 index).toNat < 131086 := by
    decide
  exact each (pc, code) (mem_of_listed placed) index inside

def isLoad : IsaAccess → Bool
  | .load _ _ => true
  | _ => false

/-- The bytes do not decide about the registers after an instruction that is no load. -/
theorem next_regs {program : BitVec 64 → Option Code} {hart other : FlatHart} (same : hart.regs = other.regs)
    (code : Code) (placed : program other.regs.rv64PC = some code)
    (quiet : isLoad (isaStep rv64 code.size other.regs code.base).access = false) :
    (next program hart).regs = (next program other).regs := by
  have here : program hart.regs.rv64PC = some code := by rw [same, placed]
  rw [next, next, here, placed, same]
  dsimp only
  rw [flatRun, flatRun]
  cases access : (isaStep rv64 code.size other.regs code.base).access with
  | none => rfl
  | load addr len =>
    rw [access] at quiet
    cases quiet
  | store addr len value => rfl

theorem safe_regs {program : BitVec 64 → Option Code} {host : Host} {feature : RevFeature} {mem : RevMem}
    {hart other : FlatHart} (same : hart.regs = other.regs) (safe : Safe program host feature mem other) :
    Safe program host feature mem hart := by
  rw [Safe, same]
  exact safe

/-- The hart of the manual after some instructions, over any bytes. -/
def squareHart (bytes : Nat → Byte) : Nat → FlatHart
  | 0 => ⟨bootRegs, bytes⟩
  | n + 1 => next (listed bootSquare) (squareHart bytes n)

def bareHart : Nat → FlatHart := squareHart fun _ => 0

theorem squareHart_regs (bytes : Nat → Byte) : (squareHart bytes 1).regs = (bareHart 1).regs ∧
    (squareHart bytes 2).regs = (bareHart 2).regs ∧ (squareHart bytes 3).regs = (bareHart 3).regs ∧
    (squareHart bytes 4).regs = (bareHart 4).regs := by
  have start : (squareHart bytes 0).regs = (bareHart 0).regs := rfl
  have one : (squareHart bytes 1).regs = (bareHart 1).regs :=
    next_regs start (.imm (.ci .li 10 5)) (by decide) (by decide)
  have two : (squareHart bytes 2).regs = (bareHart 2).regs :=
    next_regs one (.wide (.r .mul 10 10 10)) (by decide) (by decide)
  have three : (squareHart bytes 3).regs = (bareHart 3).regs :=
    next_regs two (.wide (.s .sd 2 10 (-8))) (by decide) (by decide)
  have four : (squareHart bytes 4).regs = (bareHart 4).regs :=
    next_regs three (.wide (.i .jalr 0 1 0)) (by decide) (by decide)
  exact ⟨one, two, three, four⟩

theorem bootSquare_safe (host : Host) {mem : RevMem} (valid : ValidBytes mem 2096064 8) (bytes : Nat → Byte) :
    ∀ n, stopped (runFor (listed bootSquare) n ⟨bootRegs, bytes⟩) = false →
      Safe (listed bootSquare) host rv64imc mem (runFor (listed bootSquare) n ⟨bootRegs, bytes⟩) := by
  obtain ⟨one, two, three, four⟩ := squareHart_regs bytes
  have place : (effective rv64 (bareHart 2).regs 2 (-8)).toNat = 2096064 := by decide
  have apart : Apart (listed bootSquare) 2096064 8 := by
    intro pc code placed index inside step _
    have below := bootSquare_below placed index inside
    omega
  rw [← place] at valid apart
  have first : Safe (listed bootSquare) host rv64imc mem (bareHart 0) :=
    ⟨.imm (.ci .li 10 5), by decide, ⟨by decide, trivial⟩, trivial, trivial⟩
  have second : Safe (listed bootSquare) host rv64imc mem (bareHart 1) :=
    ⟨.wide (.r .mul 10 10 10), by decide, fun _ => by decide, .inr trivial, trivial⟩
  have third : Safe (listed bootSquare) host rv64imc mem (bareHart 2) :=
    ⟨.wide (.s .sd 2 10 (-8)), by decide, fun _ => by decide, trivial, valid, apart⟩
  have fourth : Safe (listed bootSquare) host rv64imc mem (bareHart 3) :=
    ⟨.wide (.i .jalr 0 1 0), by decide, fun _ => by decide, trivial, trivial⟩
  have ended : stopped (squareHart bytes 4) = true := by
    rw [stopped, four]
    decide
  exact Lockstep.every_next _ _ first (Lockstep.every_next _ _ (safe_regs one second)
    (Lockstep.every_next _ _ (safe_regs two third) (Lockstep.every_next _ _ (safe_regs three fourth)
      (Lockstep.every_halted _ _ ended))))

theorem bootSquare_starts (bytes : Nat → Byte) : stopped ⟨bootRegs, bytes⟩ = false := by
  rw [stopped]
  exact (by decide : (bootRegs.rv64PC == 0 || bootRegs.rv64PC == Proc.panFwareJump) = false)

theorem squareHart_run (bytes : Nat → Byte) :
    runFor (listed bootSquare) 4 ⟨bootRegs, bytes⟩ = squareHart bytes 4 := by
  obtain ⟨one, two, three, -⟩ := squareHart_regs bytes
  have first : stopped (squareHart bytes 0) = false := bootSquare_starts bytes
  have second : stopped (squareHart bytes 1) = false := by
    rw [stopped, one]
    decide
  have third : stopped (squareHart bytes 2) = false := by
    rw [stopped, two]
    decide
  have fourth : stopped (squareHart bytes 3) = false := by
    rw [stopped, three]
    decide
  calc runFor (listed bootSquare) 4 (squareHart bytes 0)
    _ = runFor (listed bootSquare) 3 (squareHart bytes 1) := Lockstep.upTo_succ _ _ 3 first
    _ = runFor (listed bootSquare) 2 (squareHart bytes 2) := Lockstep.upTo_succ _ _ 2 second
    _ = runFor (listed bootSquare) 1 (squareHart bytes 3) := Lockstep.upTo_succ _ _ 1 third
    _ = runFor (listed bootSquare) 0 (squareHart bytes 4) := Lockstep.upTo_succ _ _ 0 fourth

theorem squareHart_stores (bytes : Nat → Byte) : (squareHart bytes 4).bytes 2096064 = 25 := by
  obtain ⟨-, two, three, -⟩ := squareHart_regs bytes
  have sd : listed bootSquare (bareHart 2).regs.rv64PC = some (.wide (.s .sd 2 10 (-8))) := by decide
  have stores : (isaStep rv64 4 (bareHart 2).regs (.int (.s .sd 2 10 (-8)))).access =
      .store 2096064 8 25 := by decide
  have jalr : listed bootSquare (bareHart 3).regs.rv64PC = some (.wide (.i .jalr 0 1 0)) := by decide
  have jumps : (isaStep rv64 4 (bareHart 3).regs (.int (.i .jalr 0 1 0))).access = .none := by decide
  have third : (squareHart bytes 3).bytes =
      flatStore (squareHart bytes 2).bytes 2096064 8 (bytesOf (25 : BitVec 64)) := by
    rw [squareHart, next, two, sd]
    change (flatRun (isaStep rv64 4 (bareHart 2).regs (.int (.s .sd 2 10 (-8)))) _).bytes = _
    rw [flatRun, stores]
    rfl
  have fourth : (squareHart bytes 4).bytes = (squareHart bytes 3).bytes := by
    rw [squareHart, next, three, jalr]
    change (flatRun (isaStep rv64 4 (bareHart 3).regs (.int (.i .jalr 0 1 0))) _).bytes = _
    rw [flatRun, jumps]
  rw [fourth, third, flatStore, if_pos (by decide)]
  decide

end Square
end RevCPU.Boot
