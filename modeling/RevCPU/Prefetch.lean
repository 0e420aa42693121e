import RevCPU.Lib.Bits
import RevCPU.Lib.LittleEndian
/-!
RevPrefetcher: streams of `depth` instruction words, one more for each lookup that misses. What ReadVal
does is a parameter over the state of the memory: it gives the word, or nothing where a controller stores
it later and clears the hazard then.
-/
namespace RevCPU.Prefetch

/-- REVPREF_INIT_ADDR, which stands for a word that is not filled. -/
def initAddr : BitVec 32 := 0xdeadbeef

structure Stream where
  baseAddr : BitVec 64
  iStack : Nat → BitVec 32
  iHazard : Nat → Bool

def Stream.arrive (stream : Stream) (index : Nat) (word : BitVec 32) : Stream :=
  { stream with
      iStack := Function.update stream.iStack index word
      iHazard := Function.update stream.iHazard index false }

section Arrive
variable (stream : Stream) (index : Nat) (word : BitVec 32)

@[simp] theorem arrive_baseAddr : (stream.arrive index word).baseAddr = stream.baseAddr := rfl

@[simp] theorem arrive_self : (stream.arrive index word).iStack index = word :=
  Function.update_self _ _ _

theorem arrive_other {place : Nat} (other : place ≠ index) :
    (stream.arrive index word).iStack place = stream.iStack place :=
  Function.update_of_ne other _ _

end Arrive

structure RevPrefetcher where
  depth : BitVec 32
  streams : List Stream

section Lookup
variable (depth : BitVec 32) (addr : BitVec 64) (stream : Stream)

def lastAddr : BitVec 64 := stream.baseAddr + (depth * 4).setWidth 64

def contains : Bool := decide (stream.baseAddr ≤ addr) && decide (addr < lastAddr depth stream)

/-- `Off`. -/
def offset : BitVec 32 :=
  if addr = stream.baseAddr then 0 else ((addr - stream.baseAddr) / 4).setWidth 32

/-- `iStack[i][Off]`. -/
def held : BitVec 32 := stream.iStack (offset addr stream).toNat

/-- `baseAddr[i]+(Off*4)`. -/
def heldAt : BitVec 64 := stream.baseAddr + (offset addr stream * 4).setWidth 64

end Lookup

/-- What a lookup leaves: its result, `Fetched` and the instruction word. -/
structure Reply where
  ok : Bool
  fetched : Bool
  inst : BitVec 32

section Streams
variable {σ ε : Type} (readVal : BitVec 64 → σ → Except ε (Option (BitVec 32) × σ))

/-- The stream of a fill whose first words are read. -/
def fillWords (base : BitVec 64) (mem : σ) : Nat → Except ε (Stream × σ)
  | 0 => .ok (⟨base, fun _ => initAddr, fun _ => true⟩, mem)
  | count + 1 =>
    match fillWords base mem count with
    | .error fault => .error fault
    | .ok (stream, mem) =>
      match readVal (base + (BitVec.ofNat 32 count * 4).setWidth 64) mem with
      | .error fault => .error fault
      | .ok (none, mem) => .ok (stream, mem)
      | .ok (some word, mem) => .ok (stream.arrive count word, mem)

/-- Fill, which calls itself once where the address is not a multiple of 4. -/
def fill (addr : BitVec 64) (fetch : RevPrefetcher) (mem : σ) : Except ε (RevPrefetcher × σ) :=
  let base := if addr % 4 ≠ 0 then addr &&& 0xFFFFFFFFFFFFFFFC#64 else addr
  match fillWords readVal base mem fetch.depth.toNat with
  | .error fault => .error fault
  | .ok (stream, mem) => .ok ({ fetch with streams := fetch.streams ++ [stream] }, mem)

def deleteStream (fetch : RevPrefetcher) (index : Nat) : RevPrefetcher :=
  if fetch.streams.length - 1 < index then fetch
  else { fetch with streams := fetch.streams.eraseIdx index }

/-- How the loop of FetchUpper ends. -/
inductive Upper where
  | beyond | waiting | word (inst : BitVec 32) | missing
deriving DecidableEq, Repr

def scanUpper (depth : BitVec 32) (addr : BitVec 64) : List Stream → Upper
  | [] => .missing
  | stream :: rest =>
    if contains depth addr stream then
      if depth - 1 < offset addr stream then .beyond
      else if held addr stream = initAddr then .waiting
      else if addr = heldAt addr stream then .word (held addr stream <<< 16)
      else scanUpper depth addr rest
    else scanUpper depth addr rest

def fetchUpper (addr : BitVec 64) (inst : BitVec 32) (fetch : RevPrefetcher) (mem : σ) :
    Except ε (Reply × RevPrefetcher × σ) :=
  match scanUpper fetch.depth addr fetch.streams with
  | .beyond => .ok (⟨false, false, inst⟩, fetch, mem)
  | .waiting => .ok (⟨true, false, inst⟩, fetch, mem)
  | .word inst => .ok (⟨true, true, inst⟩, fetch, mem)
  | .missing =>
    match fill readVal addr fetch mem with
    | .error fault => .error fault
    | .ok (fetch, mem) => .ok (⟨true, false, inst⟩, fetch, mem)

def isAvail (addr : BitVec 64) (fetch : RevPrefetcher) (mem : σ) :
    Except ε (Bool × RevPrefetcher × σ) :=
  match fetch.streams.find? (contains fetch.depth addr) with
  | none =>
    match fill readVal addr fetch mem with
    | .error fault => .error fault
    | .ok (fetch, mem) => .ok (false, fetch, mem)
  | some stream =>
    if fetch.depth - 1 < offset addr stream then .ok (false, fetch, mem)
    else if held addr stream = initAddr then .ok (false, fetch, mem)
    else if lastAddr fetch.depth stream - addr < 4 then
      match fetchUpper readVal (addr + 2) 0 fetch mem with
      | .error fault => .error fault
      | .ok (reply, fetch, mem) => .ok (reply.ok && reply.fetched, fetch, mem)
    else .ok (true, fetch, mem)

/-- The end of a fetch: a stream whose last word was used makes room for the next one. -/
def consume (addr : BitVec 64) (stream : Stream) (reply : Reply) (fetch : RevPrefetcher) (mem : σ) :
    Except ε (Reply × RevPrefetcher × σ) :=
  if offset addr stream = fetch.depth - 1 then
    let index := fetch.streams.findIdx (contains fetch.depth addr)
    match fill readVal (addr + 2) (deleteStream fetch index) mem with
    | .error fault => .error fault
    | .ok (fetch, mem) => .ok (reply, fetch, mem)
  else .ok (reply, fetch, mem)

/-- `inst` is what the caller's variable holds. -/
def instFetch (addr : BitVec 64) (inst : BitVec 32) (fetch : RevPrefetcher) (mem : σ) :
    Except ε (Reply × RevPrefetcher × σ) :=
  match fetch.streams.find? (contains fetch.depth addr) with
  | none =>
    match fill readVal addr fetch mem with
    | .error fault => .error fault
    | .ok (fetch, mem) => .ok (⟨true, false, inst⟩, fetch, mem)
  | some stream =>
    if fetch.depth - 1 < offset addr stream then .ok (⟨false, false, inst⟩, fetch, mem)
    else if held addr stream = initAddr then .ok (⟨true, false, inst⟩, fetch, mem)
    else if addr = heldAt addr stream then
      consume readVal addr stream ⟨true, true, held addr stream⟩ fetch mem
    else
      -- The upper half of the held word is the lower half of the instruction.
      let low := held addr stream >>> 16
      match fetchUpper readVal (addr + 2) 0 fetch mem with
      | .error fault => .error fault
      | .ok (reply, fetch, mem) =>
        if reply.ok && reply.fetched then
          consume readVal addr stream ⟨true, true, low ||| reply.inst⟩ fetch mem
        else .ok (⟨reply.ok, false, low⟩, fetch, mem)

end Streams

section Window
variable {depth : BitVec 32} {addr : BitVec 64} {stream : Stream}

theorem lastAddr_toNat : (lastAddr depth stream).toNat =
    (stream.baseAddr.toNat + depth.toNat * 4 % 2 ^ 32) % 2 ^ 64 := by
  have four : (4 : BitVec 32).toNat = 4 := rfl
  rw [lastAddr, BitVec.toNat_add, BitVec.toNat_setWidth, BitVec.toNat_mul, four]
  omega

theorem contains_iff : contains depth addr stream = true ↔
    stream.baseAddr.toNat ≤ addr.toNat ∧
      addr.toNat < (stream.baseAddr.toNat + depth.toNat * 4 % 2 ^ 32) % 2 ^ 64 := by
  rw [contains, Bool.and_eq_true, decide_eq_true_iff, decide_eq_true_iff, BitVec.le_def, BitVec.lt_def,
    lastAddr_toNat]

theorem next_whole (half : addr.toNat % 4 = 2) : (addr + 2).toNat % 4 = 0 := by
  have two : (2 : BitVec 64).toNat = 2 := rfl
  rw [BitVec.toNat_add, two]
  omega

section Inside
variable (inside : contains depth addr stream = true)
include inside

theorem offset_toNat :
    (offset addr stream).toNat = (addr.toNat - stream.baseAddr.toNat) / 4 := by
  have ⟨above, below⟩ := contains_iff.mp inside
  rw [offset]
  split
  · rename_i same
    rw [same, Nat.sub_self]
    rfl
  · have four : (4 : BitVec 64).toNat = 4 := rfl
    rw [BitVec.toNat_setWidth, BitVec.toNat_udiv, BitVec.toNat_sub_of_le above, four]
    omega

theorem offset_lt : (offset addr stream).toNat < depth.toNat := by
  have ⟨above, below⟩ := contains_iff.mp inside
  rw [offset_toNat inside]
  omega

-- The test for an offset behind the stream never holds.
theorem offset_within : ¬ depth - 1 < offset addr stream := by
  have below := offset_lt inside
  have one : (1 : BitVec 32).toNat = 1 := rfl
  rw [BitVec.lt_def, BitVec.toNat_sub_of_le, one]
  · omega
  · rw [BitVec.le_def, one]
    omega

omit inside in
-- A word lies in a window as its halves do.
theorem contains_word {word : BitVec 64} (based : stream.baseAddr.toNat % 4 = 0)
    (same : word.toNat = addr.toNat - addr.toNat % 4) :
    contains depth word stream = contains depth addr stream := by
  rw [Bool.eq_iff_iff, contains_iff, contains_iff, same]
  omega

theorem heldAt_toNat (based : stream.baseAddr.toNat % 4 = 0) :
    (heldAt addr stream).toNat = addr.toNat - addr.toNat % 4 := by
  have ⟨above, below⟩ := contains_iff.mp inside
  have four : (4 : BitVec 32).toNat = 4 := rfl
  have bound := addr.isLt
  have words := offset_toNat inside
  rw [heldAt, BitVec.toNat_add, BitVec.toNat_setWidth, BitVec.toNat_mul, four, words]
  omega

end Inside
end Window

def Based (fetch : RevPrefetcher) : Prop :=
  ∀ stream ∈ fetch.streams, stream.baseAddr.toNat % 4 = 0

/-- The first stream whose window holds the address. -/
def first (fetch : RevPrefetcher) (addr : BitVec 64) : Option Stream :=
  fetch.streams.find? (contains fetch.depth addr)

theorem first_some {fetch : RevPrefetcher} {addr : BitVec 64} {stream : Stream}
    (found : first fetch addr = some stream) :
    stream ∈ fetch.streams ∧ contains fetch.depth addr stream = true :=
  ⟨List.mem_of_find?_eq_some found, List.find?_some found⟩

theorem scanUpper_eq {depth : BitVec 32} {addr : BitVec 64} {streams : List Stream}
    (based : ∀ stream ∈ streams, stream.baseAddr.toNat % 4 = 0) (whole : addr.toNat % 4 = 0) :
    scanUpper depth addr streams =
      match streams.find? (contains depth addr) with
      | none => .missing
      | some stream =>
        if held addr stream = initAddr then .waiting else .word (held addr stream <<< 16) := by
  induction streams with
  | nil => rfl
  | cons stream rest ih =>
    rw [scanUpper]
    by_cases inside : contains depth addr stream = true
    · have same : addr = heldAt addr stream := by
        apply BitVec.eq_of_toNat_eq
        rw [heldAt_toNat inside (based stream List.mem_cons_self), whole, Nat.sub_zero]
      rw [if_pos inside, if_neg (offset_within inside), if_pos same, List.find?_cons_of_pos inside]
    · rw [if_neg inside, List.find?_cons_of_neg inside]
      exact ih fun other member => based other (List.mem_cons_of_mem stream member)

-- No stream has a word at an address that is not a multiple of 4.
theorem scanUpper_part {depth : BitVec 32} {addr : BitVec 64} {streams : List Stream}
    (based : ∀ stream ∈ streams, stream.baseAddr.toNat % 4 = 0) (part : addr.toNat % 4 ≠ 0)
    (word : BitVec 32) : scanUpper depth addr streams ≠ .word word := by
  induction streams with
  | nil => exact fun same => by cases same
  | cons stream rest ih =>
    have later := ih fun other member => based other (List.mem_cons_of_mem stream member)
    rw [scanUpper]
    split
    · rename_i inside
      have differs : addr ≠ heldAt addr stream := by
        intro same
        have place := heldAt_toNat inside (based stream List.mem_cons_self)
        rw [← same] at place
        omega
      rw [if_neg (offset_within inside), if_neg differs]
      split
      · exact fun same => by cases same
      · exact later
    · exact later

section Calls
variable {σ ε : Type} {readVal : BitVec 64 → σ → Except ε (Option (BitVec 32) × σ)}
  {addr : BitVec 64} {inst : BitVec 32} {fetch : RevPrefetcher} {mem : σ} {stream : Stream}

/-- A fill in front of an answer that is not there yet. -/
def fillThen {α : Type} (readVal : BitVec 64 → σ → Except ε (Option (BitVec 32) × σ))
    (addr : BitVec 64) (answer : α) (fetch : RevPrefetcher) (mem : σ) :
    Except ε (α × RevPrefetcher × σ) :=
  match fill readVal addr fetch mem with
  | .error fault => .error fault
  | .ok (fetch, mem) => .ok (answer, fetch, mem)

theorem fetchUpper_eq (based : Based fetch) (whole : addr.toNat % 4 = 0) :
    fetchUpper readVal addr inst fetch mem =
      match first fetch addr with
      | none => fillThen readVal addr ⟨true, false, inst⟩ fetch mem
      | some stream =>
        if held addr stream = initAddr then .ok (⟨true, false, inst⟩, fetch, mem)
        else .ok (⟨true, true, held addr stream <<< 16⟩, fetch, mem) := by
  rw [fetchUpper, scanUpper_eq based whole, first]
  cases fetch.streams.find? (contains fetch.depth addr) with
  | none => rfl
  | some stream =>
    dsimp only
    by_cases waiting : held addr stream = initAddr
    · rw [if_pos waiting, if_pos waiting]
    · rw [if_neg waiting, if_neg waiting]

theorem isAvail_missing (missing : first fetch addr = none) :
    isAvail readVal addr fetch mem = fillThen readVal addr false fetch mem := by
  rw [first] at missing
  rw [isAvail, missing]
  rfl

theorem instFetch_missing (missing : first fetch addr = none) :
    instFetch readVal addr inst fetch mem = fillThen readVal addr ⟨true, false, inst⟩ fetch mem := by
  rw [first] at missing
  rw [instFetch, missing]
  rfl

section Found
variable (found : first fetch addr = some stream)
include found

theorem isAvail_found : isAvail readVal addr fetch mem =
    if held addr stream = initAddr then .ok (false, fetch, mem)
    else if lastAddr fetch.depth stream - addr < 4 then
      match fetchUpper readVal (addr + 2) 0 fetch mem with
      | .error fault => .error fault
      | .ok (reply, fetch, mem) => .ok (reply.ok && reply.fetched, fetch, mem)
    else .ok (true, fetch, mem) := by
  have within := offset_within (first_some found).2
  rw [first] at found
  rw [isAvail, found]
  exact if_neg within

theorem instFetch_waiting (waiting : held addr stream = initAddr) :
    instFetch readVal addr inst fetch mem = .ok (⟨true, false, inst⟩, fetch, mem) := by
  have within := offset_within (first_some found).2
  rw [first] at found
  rw [instFetch, found]
  dsimp only
  rw [if_neg within, if_pos waiting]

variable (filled : held addr stream ≠ initAddr) (based : Based fetch)
include filled based

theorem instFetch_word (whole : addr.toNat % 4 = 0) :
    instFetch readVal addr inst fetch mem =
      consume readVal addr stream ⟨true, true, held addr stream⟩ fetch mem := by
  have ⟨member, inside⟩ := first_some found
  have same : addr = heldAt addr stream := by
    apply BitVec.eq_of_toNat_eq
    rw [heldAt_toNat inside (based stream member), whole, Nat.sub_zero]
  rw [first] at found
  rw [instFetch, found]
  dsimp only
  rw [if_neg (offset_within inside), if_neg filled, if_pos same]

theorem instFetch_part (part : addr.toNat % 4 ≠ 0) :
    instFetch readVal addr inst fetch mem =
      match fetchUpper readVal (addr + 2) 0 fetch mem with
      | .error fault => .error fault
      | .ok (reply, fetch, mem) =>
        if reply.ok && reply.fetched then
          consume readVal addr stream ⟨true, true, held addr stream >>> 16 ||| reply.inst⟩ fetch mem
        else .ok (⟨reply.ok, false, held addr stream >>> 16⟩, fetch, mem) := by
  have ⟨member, inside⟩ := first_some found
  have differs : addr ≠ heldAt addr stream := by
    intro same
    have place := heldAt_toNat inside (based stream member)
    rw [← same] at place
    omega
  rw [first] at found
  rw [instFetch, found]
  dsimp only
  rw [if_neg (offset_within inside), if_neg filled, if_neg differs]

/-- An address in the middle of a word takes its upper half from the first stream that holds the next
word. -/
theorem instFetch_half (half : addr.toNat % 4 = 2) :
    instFetch readVal addr inst fetch mem =
      match first fetch (addr + 2) with
      | none =>
        fillThen readVal (addr + 2) ⟨true, false, held addr stream >>> 16⟩ fetch mem
      | some next =>
        if held (addr + 2) next = initAddr then
          .ok (⟨true, false, held addr stream >>> 16⟩, fetch, mem)
        else consume readVal addr stream
          ⟨true, true, held addr stream >>> 16 ||| held (addr + 2) next <<< 16⟩ fetch mem := by
  have part : addr.toNat % 4 ≠ 0 := by omega
  rw [instFetch_part found filled based part, fetchUpper_eq based (next_whole half)]
  cases first fetch (addr + 2) with
  | none =>
    rw [fillThen, fillThen]
    cases fill readVal (addr + 2) fetch mem with
    | error fault => rfl
    | ok after => rfl
  | some next =>
    dsimp only
    by_cases waiting : held (addr + 2) next = initAddr
    · rw [if_pos waiting, if_pos waiting]
      rfl
    · rw [if_neg waiting, if_neg waiting]
      rfl

end Found

section Values
variable {holds : σ → Prop} {value : BitVec 64 → BitVec 32 → Prop}

/-- What a read leaves in its word is a value of its address, and the memory goes on holding. -/
def Serves (readVal : BitVec 64 → σ → Except ε (Option (BitVec 32) × σ)) (holds : σ → Prop)
    (value : BitVec 64 → BitVec 32 → Prop) : Prop :=
  ∀ addr mem word after, addr.toNat % 4 = 0 → holds mem → readVal addr mem = .ok (word, after) →
    value addr (word.getD initAddr) ∧ holds after

def wordAddr (base : BitVec 64) (index : Nat) : BitVec 64 :=
  base + (BitVec.ofNat 32 index * 4).setWidth 64

/-- Every word of the stream is a value of its address. -/
structure Filling (value : BitVec 64 → BitVec 32 → Prop) (depth : BitVec 32) (stream : Stream) :
    Prop where
  based : stream.baseAddr.toNat % 4 = 0
  words : ∀ index < depth.toNat, value (wordAddr stream.baseAddr index) (stream.iStack index)

theorem wordAddr_aligned {base : BitVec 64} (based : base.toNat % 4 = 0) (index : Nat) :
    (wordAddr base index).toNat % 4 = 0 := by
  have four : (4 : BitVec 32).toNat = 4 := rfl
  rw [wordAddr, BitVec.toNat_add, BitVec.toNat_setWidth, BitVec.toNat_mul, four]
  omega

theorem heldAt_wordAddr (addr : BitVec 64) (stream : Stream) :
    heldAt addr stream = wordAddr stream.baseAddr (offset addr stream).toNat := by
  rw [heldAt, wordAddr, BitVec.ofNat_toNat, BitVec.setWidth_eq]

theorem held_value {depth : BitVec 32} (filling : Filling value depth stream)
    (inside : contains depth addr stream = true) : value (heldAt addr stream) (held addr stream) := by
  rw [heldAt_wordAddr]
  exact filling.words _ (offset_lt inside)

theorem fillWords_spec (serves : Serves readVal holds value) {base : BitVec 64}
    (based : base.toNat % 4 = 0) (held : holds mem) {count : Nat} {after : σ}
    (filled : fillWords readVal base mem count = .ok (stream, after)) :
    holds after ∧ stream.baseAddr = base ∧
      (∀ index < count, value (wordAddr base index) (stream.iStack index)) ∧
      ∀ index, count ≤ index → stream.iStack index = initAddr := by
  induction count generalizing stream after with
  | zero =>
    cases filled
    exact ⟨held, rfl, fun index below => absurd below (Nat.not_lt_zero index), fun _ _ => rfl⟩
  | succ count ih =>
    rw [fillWords] at filled
    split at filled
    · cases filled
    · rename_i before between fills
      have ⟨still, same, words, rest⟩ := ih fills
      have aligned := wordAddr_aligned based count
      split at filled
      · cases filled
      · rename_i read
        cases filled
        have ⟨served, holding⟩ := serves _ _ _ _ aligned still read
        refine ⟨holding, same, ?_, fun index above => rest index (Nat.le_of_succ_le above)⟩
        intro index below
        rcases Nat.lt_succ_iff_lt_or_eq.mp below with earlier | last
        · exact words index earlier
        · rw [last, rest count (Nat.le_refl count)]
          exact served
      · rename_i word read
        cases filled
        have ⟨served, holding⟩ := serves _ _ _ _ aligned still read
        refine ⟨holding, same, ?_, ?_⟩
        · intro index below
          rcases Nat.lt_succ_iff_lt_or_eq.mp below with earlier | last
          · rw [arrive_other _ _ _ (Nat.ne_of_lt earlier)]
            exact words index earlier
          · rw [last, arrive_self]
            exact served
        · intro index above
          rw [arrive_other _ _ _ (Nat.ne_of_gt above)]
          exact rest index (Nat.le_of_succ_le above)

-- The base of a fill: the address, or the multiple of 4 below it.
theorem base_toNat (addr : BitVec 64) :
    (if addr % 4 ≠ 0 then addr &&& 0xFFFFFFFFFFFFFFFC#64 else addr).toNat =
      addr.toNat - addr.toNat % 4 := by
  have four : (4 : BitVec 64).toNat = 4 := rfl
  have mask : 0xFFFFFFFFFFFFFFFC#64 = BitVec.allOnes 64 <<< 2 := by decide
  have bound := addr.isLt
  split
  · rw [mask, Bits.clear_low, BitVec.toNat_shiftLeft, BitVec.toNat_ushiftRight, Nat.shiftLeft_eq,
      Nat.shiftRight_eq_div_pow]
    omega
  · rename_i aligned
    have zero := congrArg BitVec.toNat (Decidable.not_not.mp aligned)
    rw [BitVec.toNat_umod, four] at zero
    rw [zero]
    rfl

theorem fill_spec (serves : Serves readVal holds value) (held : holds mem) {after : RevPrefetcher}
    {memory : σ} (filled : fill readVal addr fetch mem = .ok (after, memory)) :
    holds memory ∧ ∃ added, after = { fetch with streams := fetch.streams ++ [added] } ∧
      added.baseAddr.toNat = addr.toNat - addr.toNat % 4 ∧ Filling value fetch.depth added := by
  have base := base_toNat addr
  rw [fill] at filled
  split at filled
  · cases filled
  · rename_i added read fills
    cases filled
    have based : (if addr % 4 ≠ 0 then addr &&& 0xFFFFFFFFFFFFFFFC#64 else addr).toNat % 4 = 0 := by
      rw [base]
      omega
    have ⟨holding, same, words, _⟩ := fillWords_spec serves based held fills
    rw [← same] at base based words
    exact ⟨holding, added, rfl, base, based, words⟩

/-- What the calls keep: the memory holds, and every word in a stream is a value of its address. -/
structure Sound (holds : σ → Prop) (value : BitVec 64 → BitVec 32 → Prop) (fetch : RevPrefetcher)
    (mem : σ) : Prop where
  memory : holds mem
  streams : ∀ stream ∈ fetch.streams, Filling value fetch.depth stream

theorem Sound.based (sound : Sound holds value fetch mem) : Based fetch :=
  fun stream member => (sound.streams stream member).based

theorem fill_sound (serves : Serves readVal holds value) (sound : Sound holds value fetch mem)
    {after : RevPrefetcher} {memory : σ} (filled : fill readVal addr fetch mem = .ok (after, memory)) :
    Sound holds value after memory := by
  have ⟨holding, added, same, _, filling⟩ := fill_spec serves sound.memory filled
  subst same
  refine ⟨holding, fun stream member => ?_⟩
  rcases List.mem_append.mp member with old | new
  · exact sound.streams stream old
  · rw [List.mem_singleton.mp new]
    exact filling

section Kept
variable (serves : Serves readVal holds value) (sound : Sound holds value fetch mem)
  {after : RevPrefetcher} {memory : σ}
include serves sound

theorem fillThen_sound {α : Type} {answer result : α}
    (filled : fillThen readVal addr answer fetch mem = .ok (result, after, memory)) :
    Sound holds value after memory := by
  rw [fillThen] at filled
  split at filled
  · cases filled
  · rename_i fills
    cases filled
    exact fill_sound serves sound fills

theorem fetchUpper_sound {reply : Reply}
    (called : fetchUpper readVal addr inst fetch mem = .ok (reply, after, memory)) :
    Sound holds value after memory := by
  rw [fetchUpper] at called
  split at called
  · cases called
    exact sound
  · cases called
    exact sound
  · cases called
    exact sound
  · exact fillThen_sound serves sound called

omit serves in
theorem deleteStream_sound (index : Nat) : Sound holds value (deleteStream fetch index) mem := by
  rw [deleteStream]
  split
  · exact sound
  · exact ⟨sound.memory, fun stream member => sound.streams stream (List.mem_of_mem_eraseIdx member)⟩

theorem consume_sound {reply result : Reply}
    (called : consume readVal addr stream reply fetch mem = .ok (result, after, memory)) :
    Sound holds value after memory := by
  rw [consume] at called
  split at called
  · exact fillThen_sound serves (deleteStream_sound sound _) called
  · cases called
    exact sound

theorem isAvail_sound {flag : Bool}
    (called : isAvail readVal addr fetch mem = .ok (flag, after, memory)) :
    Sound holds value after memory := by
  cases found : first fetch addr with
  | none =>
    rw [isAvail_missing found] at called
    exact fillThen_sound serves sound called
  | some stream =>
    rw [isAvail_found found] at called
    split at called
    · cases called
      exact sound
    · split at called
      · split at called
        · cases called
        · rename_i upper
          cases called
          exact fetchUpper_sound serves sound upper
      · cases called
        exact sound

theorem instFetch_sound {reply : Reply}
    (called : instFetch readVal addr inst fetch mem = .ok (reply, after, memory)) :
    Sound holds value after memory := by
  rw [instFetch] at called
  split at called
  · exact fillThen_sound serves sound called
  · split at called
    · cases called
      exact sound
    · split at called
      · cases called
        exact sound
      · split at called
        · exact consume_sound serves sound called
        · dsimp only at called
          split at called
          · cases called
          · rename_i upper
            have kept := fetchUpper_sound serves sound upper
            split at called
            · exact consume_sound serves kept called
            · cases called
              exact kept

end Kept
end Values
end Calls
end RevCPU.Prefetch
