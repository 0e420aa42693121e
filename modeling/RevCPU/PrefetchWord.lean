import RevCPU.Prefetch
import RevCPU.Tlb
/-!
What the prefetcher returns. A reply that is fetched is the word at its address, also where its halves
come from two streams, and one that is not has started a stream at the word that was missing.
-/
namespace RevCPU.Prefetch

section Words
variable (byteAt : BitVec 64 → BitVec 8)

def wordAt (addr : BitVec 64) : BitVec 32 :=
  BitVec.ofNat 32 (LittleEndian.value (fun index => byteAt (addr + BitVec.ofNat 64 index)) 4)

theorem wordAt_toNat (addr : BitVec 64) : (wordAt byteAt addr).toNat =
    (byteAt addr).toNat + (byteAt (addr + 1)).toNat * 256 + (byteAt (addr + 2)).toNat * 65536 +
      (byteAt (addr + 3)).toNat * 16777216 := by
  have zero : addr + BitVec.ofNat 64 0 = addr := BitVec.add_zero addr
  have bound : LittleEndian.value (fun index => byteAt (addr + BitVec.ofNat 64 index)) 4 < 2 ^ 32 :=
    LittleEndian.value_lt _ 4
  rw [wordAt, BitVec.toNat_ofNat, Nat.mod_eq_of_lt bound]
  simp only [LittleEndian.value, zero, Nat.zero_add, pow_zero, Nat.mul_one]
  rfl

/-- The upper half of a word and the lower half of the next are the word between them. -/
theorem wordAt_halves (addr : BitVec 64) :
    wordAt byteAt addr >>> 16 ||| wordAt byteAt (addr + 4) <<< 16 = wordAt byteAt (addr + 2) := by
  have third : addr + 2 + 1 = addr + 3 := BitVec.add_assoc addr 2 1
  have fourth : addr + 2 + 2 = addr + 4 := BitVec.add_assoc addr 2 2
  have fifth : addr + 2 + 3 = addr + 4 + 1 :=
    (BitVec.add_assoc addr 2 3).trans (BitVec.add_assoc addr 4 1).symm
  have low := wordAt_toNat byteAt addr
  have high := wordAt_toNat byteAt (addr + 4)
  have middle := wordAt_toNat byteAt (addr + 2)
  have split : (wordAt byteAt addr >>> 16).toNat = (wordAt byteAt addr).toNat / 65536 := by
    rw [BitVec.toNat_ushiftRight, Nat.shiftRight_eq_div_pow]
  have moved : (wordAt byteAt (addr + 4) <<< 16).toNat =
      2 ^ 16 * ((wordAt byteAt (addr + 4)).toNat % 65536) := by
    rw [BitVec.toNat_shiftLeft, Nat.shiftLeft_eq]
    omega
  have below : (wordAt byteAt addr).toNat / 65536 < 2 ^ 16 := by
    have bound := (wordAt byteAt addr).isLt
    omega
  apply BitVec.eq_of_toNat_eq
  rw [BitVec.toNat_or, split, moved, Nat.or_comm, ← Nat.two_pow_add_eq_or_of_lt below]
  rw [third, fourth, fifth] at middle
  have bytes : ∀ place, (byteAt place).toNat < 256 := fun place => (byteAt place).isLt
  have first := bytes addr
  have second := bytes (addr + 1)
  have bounds := bytes (addr + 2)
  have upper := bytes (addr + 3)
  have lower := bytes (addr + 4)
  have last := bytes (addr + 4 + 1)
  omega

end Words

section Runs
variable {σ ε : Type} (readVal : BitVec 64 → σ → Except ε (Option (BitVec 32) × σ))
  (holds : σ → Prop) (byteAt : BitVec 64 → BitVec 8)

/-- A read fills its word at once with what is stored there, which it does not change. -/
def Steady : Prop :=
  ∀ addr mem word after, addr.toNat % 4 = 0 → holds mem → readVal addr mem = .ok (word, after) →
    word = some (wordAt byteAt addr) ∧ holds after

/-- The prefetcher after any calls. Between calls the memory may change in any way
that keeps the instructions. -/
inductive Reached : RevPrefetcher → σ → Prop
  | start {mem : σ} (depth : BitVec 32) (held : holds mem) : Reached ⟨depth, []⟩ mem
  | isAvail {fetch after : RevPrefetcher} {mem memory : σ} {flag : Bool} (addr : BitVec 64)
      (before : Reached fetch mem)
      (called : isAvail readVal addr fetch mem = .ok (flag, after, memory)) :
      Reached after memory
  | instFetch {fetch after : RevPrefetcher} {mem memory : σ} {reply : Reply} (addr : BitVec 64)
      (inst : BitVec 32) (before : Reached fetch mem)
      (called : instFetch readVal addr inst fetch mem = .ok (reply, after, memory)) :
      Reached after memory
  | between {fetch : RevPrefetcher} {mem memory : σ} (before : Reached fetch mem)
      (held : holds memory) : Reached fetch memory

/-- No word that was fetched looks like one that was not. -/
def Clean (fetch : RevPrefetcher) : Prop :=
  ∀ stream ∈ fetch.streams, ∀ index < fetch.depth.toNat, stream.iStack index ≠ initAddr

/-- A stream was started at the missing word: the word of the address, or the next one where the
instruction reaches into it. -/
def StartsFill (addr : BitVec 64) (fetch after : RevPrefetcher) : Prop :=
  ∃ added, after.streams = fetch.streams ++ [added] ∧
    (added.baseAddr.toNat = addr.toNat - addr.toNat % 4 ∨
      addr.toNat % 4 = 2 ∧ added.baseAddr = addr + 2) ∧
    (∀ stream ∈ fetch.streams, contains fetch.depth added.baseAddr stream = false) ∧
    added.iStack 0 = wordAt byteAt added.baseAddr

variable {readVal holds byteAt}

theorem Steady.serves (steady : Steady readVal holds byteAt) :
    Serves readVal holds fun addr word => word = wordAt byteAt addr := by
  intro addr mem word after aligned held read
  have ⟨same, holding⟩ := steady addr mem word after aligned held read
  subst same
  exact ⟨rfl, holding⟩

theorem reached_sound (steady : Steady readVal holds byteAt) {fetch : RevPrefetcher} {mem : σ}
    (reached : Reached readVal holds fetch mem) :
    Sound holds (fun addr word => word = wordAt byteAt addr) fetch mem := by
  induction reached with
  | start depth held => exact ⟨held, fun stream member => absurd member List.not_mem_nil⟩
  | isAvail addr before called ih => exact isAvail_sound steady.serves ih called
  | instFetch addr inst before called ih => exact instFetch_sound steady.serves ih called
  | between before held ih => exact ⟨held, ih.streams⟩

section Reply
variable {addr : BitVec 64} {inst : BitVec 32} {fetch after : RevPrefetcher} {mem memory : σ}
  {reply : Reply}

theorem consume_reply {stream : Stream} {answer : Reply}
    (called : consume readVal addr stream answer fetch mem = .ok (reply, after, memory)) :
    reply = answer := by
  rw [consume] at called
  split at called
  · dsimp only at called
    split at called
    · cases called
    · cases called
      rfl
  · cases called
    rfl

theorem held_clean {stream : Stream} (clean : Clean fetch) (found : first fetch addr = some stream) :
    held addr stream ≠ initAddr :=
  clean stream (first_some found).1 _ (offset_lt (first_some found).2)

theorem heldAt_whole {stream : Stream} (based : Based fetch) (found : first fetch addr = some stream)
    (whole : addr.toNat % 4 = 0) : heldAt addr stream = addr := by
  have ⟨member, inside⟩ := first_some found
  apply BitVec.eq_of_toNat_eq
  rw [heldAt_toNat inside (based stream member), whole, Nat.sub_zero]

theorem fillThen_starts {α : Type} {answer result : α} {target : BitVec 64}
    (steady : Steady readVal holds byteAt)
    (sound : Sound holds (fun addr word => word = wordAt byteAt addr) fetch mem)
    (positive : 1 ≤ fetch.depth.toNat) (missing : first fetch target = none)
    (part : target = addr ∨ addr.toNat % 4 = 2 ∧ target = addr + 2)
    (filled : fillThen readVal target answer fetch mem = .ok (result, after, memory)) :
    result = answer ∧ StartsFill byteAt addr fetch after := by
  rw [fillThen] at filled
  split at filled
  · cases filled
  · rename_i fills
    cases filled
    obtain ⟨_, added, same, base, filling⟩ := fill_spec steady.serves sound.memory fills
    subst same
    refine ⟨rfl, added, rfl, ?_, ?_, ?_⟩
    · rcases part with same | ⟨half, same⟩
      · subst same
        exact .inl base
      · subst same
        refine .inr ⟨half, BitVec.eq_of_toNat_eq ?_⟩
        rw [base, next_whole half, Nat.sub_zero]
    · intro stream member
      rw [contains_word (sound.based stream member) base]
      exact Bool.eq_false_iff.mpr (List.find?_eq_none.mp missing stream member)
    · have word := filling.words 0 positive
      have start : wordAddr added.baseAddr 0 = added.baseAddr := BitVec.add_zero _
      rw [start] at word
      exact word

end Reply

/-- A fetch gives the word stored at its address, or starts a fill at a word that no window holds. -/
theorem fetch_returns_word {addr : BitVec 64} {inst : BitVec 32} {fetch after : RevPrefetcher}
    {mem memory : σ} {reply : Reply} (steady : Steady readVal holds byteAt)
    (positive : 1 ≤ fetch.depth.toNat) (reached : Reached readVal holds fetch mem) (even : addr.toNat % 2 = 0)
    (clean : Clean fetch)
    (called : instFetch readVal addr inst fetch mem = .ok (reply, after, memory)) :
    reply.ok = true ∧ (reply.fetched = true → reply.inst = wordAt byteAt addr) ∧
      (reply.fetched = false → StartsFill byteAt addr fetch after) := by
  have sound := reached_sound steady reached
  cases found : first fetch addr with
  | none =>
    rw [instFetch_missing found] at called
    have ⟨same, starts⟩ := fillThen_starts steady sound positive found (.inl rfl) called
    subst same
    exact ⟨rfl, fun fetched => absurd fetched (by simp), fun _ => starts⟩
  | some stream =>
    have ⟨member, inside⟩ := first_some found
    have filled := held_clean clean found
    have word : held addr stream = wordAt byteAt (heldAt addr stream) :=
      held_value (sound.streams stream member) inside
    rcases Nat.mod_two_eq_zero_or_one (addr.toNat / 2) with whole | half
    · rw [instFetch_word found filled sound.based (by omega)] at called
      rw [heldAt_whole sound.based found (by omega)] at word
      have same := consume_reply called
      subst same
      exact ⟨rfl, fun _ => word, fun fetched => absurd fetched (by simp)⟩
    · have half : addr.toNat % 4 = 2 := by omega
      rw [instFetch_half found filled sound.based half] at called
      cases next : first fetch (addr + 2) with
      | none =>
        rw [next] at called
        have ⟨same, starts⟩ := fillThen_starts steady sound positive next (.inr ⟨half, rfl⟩) called
        subst same
        exact ⟨rfl, fun fetched => absurd fetched (by simp), fun _ => starts⟩
      | some upper =>
        rw [next] at called
        dsimp only at called
        rw [if_neg (held_clean clean next)] at called
        have same := consume_reply called
        subst same
        refine ⟨rfl, fun _ => ?_, fun fetched => absurd fetched (by simp)⟩
        have ⟨member', inside'⟩ := first_some next
        have word' : held (addr + 2) upper = wordAt byteAt (heldAt (addr + 2) upper) :=
          held_value (sound.streams upper member') inside'
        rw [heldAt_whole sound.based next (next_whole half)] at word'
        have below : heldAt addr stream + 2 = addr := by
          have start := heldAt_toNat inside (sound.based stream member)
          have two : (2 : BitVec 64).toNat = 2 := rfl
          apply BitVec.eq_of_toNat_eq
          rw [BitVec.toNat_add, start, two]
          omega
        have above : heldAt addr stream + 4 = addr + 2 :=
          (BitVec.add_assoc _ 2 2).symm.trans (congrArg (· + 2) below)
        dsimp only
        rw [word, word', ← above, wordAt_halves, below]

end Runs

section Memory
open Mem LruCache MemRefine

/-- ReadVal of an instruction word without a controller. -/
def readWord (hart : Nat) (addr : BitVec 64) (mem : RevMem) :
    Except MemFault (Option (BitVec 32) × RevMem) :=
  let target : Buffer := fun index => (initAddr >>> (8 * index)).setWidth 8
  match mem.readMem hart addr.toNat 4 target 0 with
  | .error fault => .error fault
  | .ok (reply, mem) => .ok (some (BitVec.ofNat 32 (LittleEndian.value reply.target 4)), mem)

/-- A memory in which translations stay inside, as accesses assume. -/
structure Settled (mem : RevMem) : Prop where
  sized : Sized mem
  coherent : Coherent mem
  positive : mem.tlbSize ≠ 0

/-- The TLB holds the address, or it is valid. -/
def Known (mem : RevMem) (vAddr : Nat) : Prop :=
  vAddr ∈ mem.tlb.keys ∨ mem.isValidVirtAddr vAddr = true

section Translation
variable {mem : RevMem} {vAddr : Nat}

theorem Settled.unseen (settled : Settled mem) {after : RevMem} (unseen : Unseen mem after) :
    Settled after where
  sized := settled.sized.of_layout unseen.layout
  coherent := unseen.coherent
  positive := by
    rw [(layout_fields unseen.layout).2]
    exact settled.positive

-- A cached cell is one of physical memory.
theorem cached_ne (settled : Settled mem) {physAddr : Nat}
    (hit : mem.tlb.lookup vAddr = some physAddr) : physAddr ≠ invalidAddr := by
  have inside := place_lt_memSize settled.coherent (settled.coherent.cached vAddr physAddr hit)
  have small := settled.sized.small
  rw [invalidAddr]
  omega

theorem calcPhysAddr_unknown (page : Nat) (unknown : ¬ Known mem vAddr) :
    mem.calcPhysAddr page vAddr = .error (.segFault vAddr) := by
  have ⟨absent, invalid⟩ := not_or.mp unknown
  have missed := Tlb.searchTLB_miss (Cache.not_mem_keys.mp absent)
  rw [RevMem.calcPhysAddr, missed]
  exact if_neg invalid

theorem calcPhysAddr_used {page physAddr : Nat} {after : RevMem}
    (apart : ∀ cell, mem.tlb.lookup vAddr = some cell → cell ≠ invalidAddr)
    (translated : mem.calcPhysAddr page vAddr = .ok (physAddr, after)) :
    after.tlb.keys = Cache.used mem.tlbSize mem.tlb.keys vAddr := by
  cases found : mem.tlb.lookup vAddr with
  | some cell =>
    rw [Tlb.calcPhysAddr_cached page found (apart cell found)] at translated
    cases translated
    rw [Tlb.searchTLB_tlb, Cache.used_search _ (Cache.mem_keys.mpr ⟨_, found⟩)]
  | none =>
    have ⟨_, _, added⟩ := Tlb.calcPhysAddr_missed found translated
    rw [RevMem.addToTLB] at added
    split at added
    · cases added
    · rename_i tlb grown
      cases added
      have same := Cache.used_add grown
      rw [(touchPage_tlb _ page).1, (touchPage_tlb _ page).2, Tlb.searchTLB_miss found] at same
      exact same

theorem calcPhysAddr_known (settled : Settled mem) (known : Known mem vAddr) :
    ∃ physAddr after, mem.calcPhysAddr (vAddr / pageSize) vAddr = .ok (physAddr, after) ∧
      Unseen mem after ∧ FirstTouch.place after.pageMap pageSize vAddr = some physAddr := by
  cases found : mem.tlb.lookup vAddr with
  | some cell =>
    have searched := searchTLB_unseen settled.coherent vAddr
    refine ⟨cell, _, Tlb.calcPhysAddr_cached _ found (cached_ne settled found), searched, ?_⟩
    exact searched.place (settled.coherent.cached vAddr cell found)
  | none =>
    rcases known with member | valid
    · have ⟨cell, hit⟩ := Cache.mem_keys.mp member
      rw [found] at hit
      cases hit
    · exact calcPhysAddr_valid settled.sized settled.coherent settled.positive valid

theorem locate_word (settled : Settled mem) (whole : vAddr % 4 = 0) (known : Known mem vAddr) :
    ∃ physAddr after, mem.locate vAddr 4 = .ok (⟨physAddr, 4, 0, 0⟩, after) ∧ Unseen mem after ∧
      FirstTouch.place after.pageMap pageSize vAddr = some physAddr ∧
      after.tlb.keys = Cache.used mem.tlbSize mem.tlb.keys vAddr := by
  have ⟨physAddr, after, translated, unseen, behind⟩ := calcPhysAddr_known settled known
  have ⟨frame, owner, same⟩ := Option.map_eq_some_iff.mp behind
  subst same
  have fits := frame_fits unseen.coherent owner
  have base := pageBase_eq fits (settled.sized.of_layout unseen.layout)
  have small := (settled.sized.of_layout unseen.layout).small
  have lookup : after.frameOf (vAddr / pageSize) = (frame, after) := by
    rw [RevMem.frameOf, owner]
  have within : ¬ (frame * pageSize + pageSize) % 2 ^ 32 <
      (frame * pageSize + vAddr % pageSize + 4) % 2 ^ 64 := by
    simp only [pageSize] at fits ⊢
    omega
  refine ⟨_, after, ?_, unseen, behind, calcPhysAddr_used (fun _ => cached_ne settled) translated⟩
  simp only [RevMem.locate, page_shift, translated, lookup, base, within, if_false]

end Translation

section Reads
variable {mem : RevMem} {addr : BitVec 64} (hart : Nat)

/-- The bytes of the instructions as the prefetcher's addresses name them. -/
def stored (flat : Nat → Byte) (addr : BitVec 64) : BitVec 8 := flat addr.toNat

theorem readWord_known (settled : Settled mem) (whole : addr.toNat % 4 = 0)
    (known : Known mem addr.toNat) :
    ∃ after, readWord hart addr mem =
        .ok (some (wordAt (stored (MemRefine.byteAt mem)) addr), after) ∧ Unseen mem after ∧
      after.tlb.keys = Cache.used mem.tlbSize mem.tlb.keys addr.toNat := by
  have ⟨physAddr, after, located, unseen, behind, keys⟩ := locate_word settled whole known
  have cells : ∀ step, step < 4 →
      FirstTouch.place after.pageMap pageSize (addr.toNat + step) = some (physAddr + step) := by
    intro step inside
    apply FirstTouch.place_add behind
    rw [pageSize]
    omega
  have copied := copyOut_valid unseen.coherent 0
    (fun index => (initAddr >>> (8 * index)).setWidth 8) cells
  have counted : Unseen after { after with memStats := { after.memStats with
      bytesRead := (after.memStats.bytesRead + 4) % 2 ^ 32 } } :=
    .of_pageMap unseen.coherent rfl rfl rfl rfl unseen.coherent.cached
  refine ⟨_, ?_, unseen.trans counted, keys⟩
  have rest : ∀ buffer, after.copyOut 0 4 buffer 0 = .ok buffer := fun _ => rfl
  simp only [readWord, RevMem.readMem, located, copied, rest]
  have word : LittleEndian.value (fun index => if 0 ≤ index ∧ index < 0 + 4 then
        MemRefine.byteAt after (addr.toNat + (index - 0))
      else (initAddr >>> (8 * index)).setWidth 8) 4 =
      LittleEndian.value (fun index => stored (MemRefine.byteAt mem) (addr + BitVec.ofNat 64 index)) 4 := by
    apply LittleEndian.value_congr
    intro index inside
    have bound := addr.isLt
    have place : (addr + BitVec.ofNat 64 index).toNat = addr.toNat + index := by
      rw [BitVec.toNat_add, BitVec.toNat_ofNat]
      omega
    rw [if_pos (by omega), stored, place, unseen.view, Nat.sub_zero]
  rw [wordAt, ← word]

theorem readWord_unknown (unknown : ¬ Known mem addr.toNat) :
    readWord hart addr mem = .error (.segFault addr.toNat) := by
  have fault := calcPhysAddr_unknown (addr.toNat >>> addrShift) unknown
  rw [readWord, RevMem.readMem, RevMem.locate, fault]

/-- RevMem without a controller is such a memory while the instructions stay what they are. -/
theorem readWord_steady (flat : Nat → Byte) :
    Steady (readWord hart) (fun mem => Settled mem ∧ MemRefine.byteAt mem = flat) (stored flat) := by
  rintro addr mem word after whole ⟨settled, same⟩ read
  by_cases known : Known mem addr.toNat
  · have ⟨memory, reads, unseen, _⟩ := readWord_known hart settled whole known
    rw [reads] at read
    cases read
    rw [same]
    exact ⟨rfl, settled.unseen unseen, (funext unseen.view).trans same⟩
  · rw [readWord_unknown hart known] at read
    cases read

end Reads
section Program

/-- Two instructions on the stack, the bytes 1 to 8. -/
def program : RevMem :=
  match (RevMem.new 2097152 16 1 0).storeLocal 1310720 8 fun index => BitVec.ofNat 8 (index + 1) with
  | .ok mem => mem
  | .error _ => RevMem.new 2097152 16 1 0

theorem program_settled : Settled program := by
  have sized := sized_stack_only 16
  have valid : Touchable (RevMem.new 2097152 16 1 0) 1310720 8 := by
    apply touchable_of_valid (by decide)
    intro step inside
    exact (valid_stack_only 16 _).mpr (by omega)
  have ⟨after, stored, coherent, same, _⟩ :=
    storeLocal_valid sized (untouched_new _ _ _ _).coherent (by decide) (by decide) valid
      fun index => BitVec.ofNat 8 (index + 1)
  have program : program = after := by
    rw [program, stored]
  rw [program]
  refine ⟨sized.of_layout same, coherent, ?_⟩
  rw [(layout_fields same).2]
  decide

/-- What the first fetch leaves: a stream of two words. -/
def missed : RevPrefetcher × RevMem :=
  match instFetch (readWord 0) 1310720 0 ⟨2, []⟩ program with
  | .ok (_, after, memory) => (after, memory)
  | .error _ => (⟨2, []⟩, program)

-- The second fetch takes a half from each word.
theorem fetch_returns_word_half :
    ∃ after memory reply, instFetch (readWord 0) 1310722 0 missed.1 missed.2 =
        .ok (reply, after, memory) ∧
      reply.fetched = true ∧ reply.inst = 0x06050403 ∧
      reply.inst = wordAt (stored (MemRefine.byteAt program)) 1310722 := by
  have steady := readWord_steady 0 (MemRefine.byteAt program)
  have started : Reached (readWord 0)
      (fun mem => Settled mem ∧ MemRefine.byteAt mem = MemRefine.byteAt program) ⟨2, []⟩ program :=
    .start 2 ⟨program_settled, rfl⟩
  have reached : Reached (readWord 0)
      (fun mem => Settled mem ∧ MemRefine.byteAt mem = MemRefine.byteAt program) missed.1 missed.2 :=
    started.instFetch 1310720 0 rfl
  have clean : Clean missed.1 := by
    rw [Clean]
    decide
  have called : ∃ result, instFetch (readWord 0) 1310722 0 missed.1 missed.2 = .ok result ∧
      result.1.fetched = true ∧ result.1.inst = 0x06050403 := ⟨_, rfl, rfl, rfl⟩
  have ⟨⟨reply, after, memory⟩, called, fetched, inst⟩ := called
  have even : (1310722 : BitVec 64).toNat % 2 = 0 := by decide
  have word := fetch_returns_word steady (by decide) reached even clean called
  exact ⟨after, memory, reply, called, fetched, inst, word.2.1 fetched⟩

end Program
end Memory
end RevCPU.Prefetch
