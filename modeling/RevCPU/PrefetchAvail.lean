import RevCPU.Prefetch
/-!
Whether what is available can be fetched. The test of IsAvail asks for the next word only where the
stream ends in the middle of the instruction, a fetch asks for it at every address that is not a multiple
of 4, and a word that looks like REVPREF_INIT_ADDR is never filled for either of them.
-/
namespace RevCPU.Prefetch

/-- The first stream that holds the word holds it filled. -/
def Ready (fetch : RevPrefetcher) (word : BitVec 64) : Prop :=
  word.toNat % 4 = 0 ∧ ∃ next, first fetch word = some next ∧ held word next ≠ initAddr

/-- What IsAvail sees of an address that is available. -/
def Sighted (fetch : RevPrefetcher) (addr : BitVec 64) : Prop :=
  ∃ stream, first fetch addr = some stream ∧ held addr stream ≠ initAddr ∧
    (lastAddr fetch.depth stream - addr < 4 → Ready fetch (addr + 2))

def Fetchable (fetch : RevPrefetcher) (addr : BitVec 64) : Prop :=
  ∃ stream, first fetch addr = some stream ∧ held addr stream ≠ initAddr ∧
    (addr.toNat % 4 ≠ 0 → Ready fetch (addr + 2))

section Queued
variable {σ ε : Type} (readVal : BitVec 64 → σ → Except ε (Option (BitVec 32) × σ))

/-- A memory with a controller: it takes every read and stores the word later. -/
def Queues : Prop := ∀ addr mem, ∃ after, readVal addr mem = .ok (none, after)

/-- The prefetcher after any calls. Words of its streams arrive in any order, with any values. -/
inductive Delivered : RevPrefetcher → σ → Prop
  | start (depth : BitVec 32) (mem : σ) : Delivered ⟨depth, []⟩ mem
  | isAvail {fetch after : RevPrefetcher} {mem memory : σ} {flag : Bool} (addr : BitVec 64)
      (before : Delivered fetch mem)
      (called : isAvail readVal addr fetch mem = .ok (flag, after, memory)) : Delivered after memory
  | instFetch {fetch after : RevPrefetcher} {mem memory : σ} {reply : Reply} (addr : BitVec 64)
      (inst : BitVec 32) (before : Delivered fetch mem)
      (called : instFetch readVal addr inst fetch mem = .ok (reply, after, memory)) :
      Delivered after memory
  | arrive {fetch : RevPrefetcher} {mem : σ} {stream : Stream} (position index : Nat)
      (word : BitVec 32) (memory : σ) (before : Delivered fetch mem)
      (live : fetch.streams[position]? = some stream) (inside : index < fetch.depth.toNat)
      (pending : stream.iHazard index = true) :
      Delivered { fetch with streams := fetch.streams.set position (stream.arrive index word) } memory

def Complete (fetch : RevPrefetcher) : Prop :=
  ∀ stream ∈ fetch.streams, ∀ index < fetch.depth.toNat, stream.iHazard index = false

/-- Each of the four bytes is in the range of some stream. -/
def Covered (fetch : RevPrefetcher) (addr : BitVec 64) : Prop :=
  ∀ byte < 4, ∃ stream ∈ fetch.streams,
    (addr + BitVec.ofNat 64 byte - stream.baseAddr).toNat < 4 * fetch.depth.toNat

/-- Availability implies fetchability, and a covered address is available once all fills are complete. -/
structure Available (addr : BitVec 64) (fetch : RevPrefetcher) (mem : σ) : Prop where
  fetched : ∀ after memory, isAvail readVal addr fetch mem = .ok (true, after, memory) →
    ∀ inst, ∃ reply last final,
      instFetch readVal addr inst after memory = .ok (reply, last, final) ∧ reply.fetched = true
  complete : Complete fetch → addr.toNat % 2 = 0 → Covered fetch addr →
    ∃ after memory, isAvail readVal addr fetch mem = .ok (true, after, memory)

/-- A window that holds the address: its length in 32 bits, with no carry out of the 64 of its end. -/
def Straight (depth : BitVec 32) (addr : BitVec 64) (stream : Stream) : Prop :=
  stream.baseAddr.toNat ≤ addr.toNat ∧
    addr.toNat < stream.baseAddr.toNat + depth.toNat * 4 % 2 ^ 32 ∧
    stream.baseAddr.toNat + depth.toNat * 4 % 2 ^ 32 < 2 ^ 64

/-- Some window holds the address, and the word there, if it has arrived, is not 0xdeadbeef. -/
structure Plain (fetch : RevPrefetcher) (addr : BitVec 64) : Prop where
  straight : ∃ stream ∈ fetch.streams, Straight fetch.depth addr stream
  genuine : ∀ stream, first fetch addr = some stream →
    stream.iHazard (offset addr stream).toNat = false → held addr stream ≠ initAddr

/-- In the middle of a stream the next word is filled too; no window that is needed wraps, and no needed
word is 0xdeadbeef. -/
structure Usable (addr : BitVec 64) (fetch : RevPrefetcher) : Prop where
  upper : ∀ stream, first fetch addr = some stream → held addr stream ≠ initAddr →
    ¬ lastAddr fetch.depth stream - addr < 4 → addr.toNat % 4 ≠ 0 → Ready fetch (addr + 2)
  plain : Complete fetch → addr.toNat % 2 = 0 → Covered fetch addr → Plain fetch addr ∧
    ∀ stream, first fetch addr = some stream → lastAddr fetch.depth stream - addr < 4 →
      Plain fetch (addr + 2)

section Windows
variable {fetch : RevPrefetcher} {addr : BitVec 64}

theorem contains_iff_straight {depth : BitVec 32} {stream : Stream} :
    contains depth addr stream = true ↔ Straight depth addr stream := by
  have base := stream.baseAddr.isLt
  have bound := addr.isLt
  rw [contains_iff, Straight]
  omega

theorem first_of_straight (straight : ∃ stream ∈ fetch.streams, Straight fetch.depth addr stream) :
    ∃ stream, first fetch addr = some stream := by
  have ⟨stream, member, inside⟩ := straight
  apply Option.isSome_iff_exists.mp
  rw [first, List.find?_isSome]
  exact ⟨stream, member, contains_iff_straight.mpr inside⟩

theorem straight_of_first {stream : Stream} (found : first fetch addr = some stream) :
    ∃ stream ∈ fetch.streams, Straight fetch.depth addr stream :=
  ⟨stream, (first_some found).1, contains_iff_straight.mp (first_some found).2⟩

-- With complete fills a plain address has its word.
theorem held_of_plain (complete : Complete fetch) (plain : Plain fetch addr) :
    ∃ stream, first fetch addr = some stream ∧ held addr stream ≠ initAddr := by
  have ⟨stream, found⟩ := first_of_straight plain.straight
  have ⟨member, inside⟩ := first_some found
  exact ⟨stream, found, plain.genuine stream found (complete stream member _ (offset_lt inside))⟩

theorem plain_of_held {stream : Stream} (found : first fetch addr = some stream)
    (filled : held addr stream ≠ initAddr) : Plain fetch addr := by
  refine ⟨straight_of_first found, fun other here _ => ?_⟩
  rw [found] at here
  cases here
  exact filled

-- Only the upper half of a window's last word is followed by fewer than four bytes.
theorem last_half {depth : BitVec 32} {stream : Stream} (based : stream.baseAddr.toNat % 4 = 0)
    (inside : contains depth addr stream = true) (even : addr.toNat % 2 = 0)
    (ends : lastAddr depth stream - addr < 4) : addr.toNat % 4 = 2 := by
  have ⟨_, below, fits⟩ := contains_iff_straight.mp inside
  have last := @lastAddr_toNat depth stream
  rw [Nat.mod_eq_of_lt fits] at last
  have four : (4 : BitVec 64).toNat = 4 := rfl
  have behind : addr ≤ lastAddr depth stream := by
    rw [BitVec.le_def, last]
    omega
  rw [BitVec.lt_def, BitVec.toNat_sub_of_le behind, last, four] at ends
  omega

theorem sighted_iff_plain (based : Based fetch) (complete : Complete fetch)
    (even : addr.toNat % 2 = 0) : Sighted fetch addr ↔ Plain fetch addr ∧
      ∀ stream, first fetch addr = some stream → lastAddr fetch.depth stream - addr < 4 →
        Plain fetch (addr + 2) := by
  constructor
  · rintro ⟨stream, found, filled, ends⟩
    refine ⟨plain_of_held found filled, fun other here short => ?_⟩
    rw [found] at here
    cases here
    have ⟨_, next, next_found, next_filled⟩ := ends short
    exact plain_of_held next_found next_filled
  · rintro ⟨plain, ends⟩
    have ⟨stream, found, filled⟩ := held_of_plain complete plain
    refine ⟨stream, found, filled, fun short => ?_⟩
    have ⟨member, inside⟩ := first_some found
    have half := last_half (based stream member) inside even short
    exact ⟨next_whole half, held_of_plain complete (ends stream found short)⟩

section Covered
variable (short : fetch.depth.toNat * 4 < 2 ^ 32)
  (ends : ∀ stream ∈ fetch.streams, stream.baseAddr.toNat + fetch.depth.toNat * 4 < 2 ^ 64)
  (genuine : ∀ stream ∈ fetch.streams, ∀ index < fetch.depth.toNat,
    stream.iHazard index = false → stream.iStack index ≠ initAddr)
include short ends genuine

theorem plain_of_covers (covers : ∃ stream ∈ fetch.streams,
    (addr - stream.baseAddr).toNat < 4 * fetch.depth.toNat) : Plain fetch addr := by
  constructor
  · have ⟨stream, member, within⟩ := covers
    have top := ends stream member
    have bound := addr.isLt
    rw [BitVec.toNat_sub] at within
    refine ⟨stream, member, ?_⟩
    rw [Straight, Nat.mod_eq_of_lt short]
    omega
  · intro stream found arrived
    have ⟨member, inside⟩ := first_some found
    exact genuine stream member _ (offset_lt inside) arrived

/-- Where no window wraps and no word that arrived is 0xdeadbeef, what a covered address needs is there. -/
theorem plain_of_covered (covered : Covered fetch addr) :
    Plain fetch addr ∧ Plain fetch (addr + 2) := by
  constructor
  · apply plain_of_covers short ends genuine
    simpa using covered 0 (by decide)
  · apply plain_of_covers short ends genuine
    simpa using covered 2 (by decide)

end Covered
end Windows

variable {readVal}

theorem delivered_based {fetch : RevPrefetcher} {mem : σ} (delivered : Delivered readVal fetch mem) :
    Sound (fun _ => True) (fun _ _ => True) fetch mem := by
  have serves : Serves readVal (fun _ => True) fun _ _ => True := fun _ _ _ _ _ _ _ => ⟨trivial, trivial⟩
  induction delivered with
  | start depth mem => exact ⟨trivial, fun stream member => absurd member List.not_mem_nil⟩
  | isAvail addr before called ih => exact isAvail_sound serves ih called
  | instFetch addr inst before called ih => exact instFetch_sound serves ih called
  | @arrive fetch mem stream position index word memory before live inside pending ih =>
    refine ⟨trivial, fun other member => ⟨?_, fun _ _ => trivial⟩⟩
    rcases List.mem_or_eq_of_mem_set member with old | new
    · exact ih.based other old
    · rw [new]
      exact ih.based stream (List.mem_of_getElem? live)

section Answers
variable {fetch : RevPrefetcher} {mem : σ} {addr : BitVec 64} (queues : Queues readVal)
  (based : Based fetch)
include queues

theorem fillWords_queues (base : BitVec 64) (mem : σ) (count : Nat) :
    ∃ stream after, fillWords readVal base mem count = .ok (stream, after) := by
  induction count with
  | zero => exact ⟨_, _, rfl⟩
  | succ count ih =>
    have ⟨stream, between, filled⟩ := ih
    have ⟨after, read⟩ := queues (base + (BitVec.ofNat 32 count * 4).setWidth 64) between
    rw [fillWords, filled]
    dsimp only
    rw [read]
    exact ⟨stream, after, rfl⟩

theorem fillThen_queues {α : Type} (addr : BitVec 64) (answer : α) (fetch : RevPrefetcher) (mem : σ) :
    ∃ after memory, fillThen readVal addr answer fetch mem = .ok (answer, after, memory) := by
  have ⟨stream, memory, filled⟩ := fillWords_queues queues
    (if addr % 4 ≠ 0 then addr &&& 0xFFFFFFFFFFFFFFFC#64 else addr) mem fetch.depth.toNat
  rw [fillThen, fill, filled]
  exact ⟨_, memory, rfl⟩

theorem consume_queues (addr : BitVec 64) (stream : Stream) (reply : Reply) (fetch : RevPrefetcher)
    (mem : σ) : ∃ after memory, consume readVal addr stream reply fetch mem =
      .ok (reply, after, memory) := by
  rw [consume]
  split
  · exact fillThen_queues queues _ _ _ _
  · exact ⟨fetch, mem, rfl⟩

include based

theorem fetchUpper_ready (addr : BitVec 64) (inst : BitVec 32) (mem : σ) :
    ∃ reply after memory, fetchUpper readVal addr inst fetch mem = .ok (reply, after, memory) ∧
      ((reply.ok && reply.fetched) = true ↔ Ready fetch addr) ∧
      (Ready fetch addr → after = fetch ∧ memory = mem) := by
  by_cases whole : addr.toNat % 4 = 0
  · rw [fetchUpper_eq based whole]
    cases found : first fetch addr with
    | none =>
      have ⟨after, memory, filled⟩ :=
        fillThen_queues queues addr (⟨true, false, inst⟩ : Reply) fetch mem
      have unready : ¬ Ready fetch addr := by
        rintro ⟨-, next, at', -⟩
        rw [found] at at'
        cases at'
      exact ⟨_, after, memory, filled, by simp [unready], fun ready => absurd ready unready⟩
    | some stream =>
      dsimp only
      by_cases waiting : held addr stream = initAddr
      · have unready : ¬ Ready fetch addr := by
          rintro ⟨-, next, at', filled⟩
          rw [found] at at'
          cases at'
          exact filled waiting
        rw [if_pos waiting]
        exact ⟨_, fetch, mem, rfl, by simp [unready], fun _ => ⟨rfl, rfl⟩⟩
      · have ready : Ready fetch addr := ⟨whole, stream, found, waiting⟩
        rw [if_neg waiting]
        exact ⟨_, fetch, mem, rfl, by simp [ready], fun _ => ⟨rfl, rfl⟩⟩
  · have unready : ¬ Ready fetch addr := fun ready => whole ready.1
    have absent : ∀ word, scanUpper fetch.depth addr fetch.streams ≠ .word word :=
      scanUpper_part based whole
    rw [fetchUpper]
    cases scan : scanUpper fetch.depth addr fetch.streams with
    | beyond => exact ⟨_, fetch, mem, rfl, by simp [unready], fun _ => ⟨rfl, rfl⟩⟩
    | waiting => exact ⟨_, fetch, mem, rfl, by simp [unready], fun _ => ⟨rfl, rfl⟩⟩
    | word word => exact absurd scan (absent word)
    | missing =>
      have ⟨after, memory, filled⟩ :=
        fillThen_queues queues addr (⟨true, false, inst⟩ : Reply) fetch mem
      exact ⟨_, after, memory, filled, by simp [unready], fun ready => absurd ready unready⟩

theorem isAvail_sighted (addr : BitVec 64) (mem : σ) :
    ∃ flag after memory, isAvail readVal addr fetch mem = .ok (flag, after, memory) ∧
      (flag = true ↔ Sighted fetch addr) ∧ (flag = true → after = fetch ∧ memory = mem) := by
  cases found : first fetch addr with
  | none =>
    have ⟨after, memory, filled⟩ := fillThen_queues queues addr false fetch mem
    have unsighted : ¬ Sighted fetch addr := by
      rintro ⟨stream, here, -⟩
      rw [found] at here
      cases here
    rw [isAvail_missing found]
    exact ⟨false, after, memory, filled, by simp [unsighted], by simp⟩
  | some stream =>
    have sighted : Sighted fetch addr ↔ held addr stream ≠ initAddr ∧
        (lastAddr fetch.depth stream - addr < 4 → Ready fetch (addr + 2)) := by
      constructor
      · rintro ⟨other, here, rest⟩
        rw [found] at here
        cases here
        exact rest
      · exact fun rest => ⟨stream, found, rest⟩
    rw [isAvail_found found, sighted]
    by_cases waiting : held addr stream = initAddr
    · rw [if_pos waiting]
      exact ⟨false, fetch, mem, rfl, by simp [waiting], by simp⟩
    · rw [if_neg waiting]
      by_cases short : lastAddr fetch.depth stream - addr < 4
      · have ⟨reply, after, memory, called, ready, kept⟩ :=
          fetchUpper_ready queues based (addr + 2) 0 mem
        rw [if_pos short, called]
        refine ⟨_, after, memory, rfl, ?_, fun flag => kept (ready.mp flag)⟩
        rw [ready]
        exact ⟨fun here => ⟨waiting, fun _ => here⟩, fun rest => rest.2 short⟩
      · rw [if_neg short]
        exact ⟨true, fetch, mem, rfl,
          ⟨fun _ => ⟨waiting, fun here => absurd here short⟩, fun _ => rfl⟩, fun _ => ⟨rfl, rfl⟩⟩

theorem instFetch_fetchable (addr : BitVec 64) (inst : BitVec 32) (mem : σ) :
    ∃ reply after memory, instFetch readVal addr inst fetch mem = .ok (reply, after, memory) ∧
      (reply.fetched = true ↔ Fetchable fetch addr) := by
  cases found : first fetch addr with
  | none =>
    have ⟨after, memory, filled⟩ :=
      fillThen_queues queues addr (⟨true, false, inst⟩ : Reply) fetch mem
    have unfetchable : ¬ Fetchable fetch addr := by
      rintro ⟨stream, here, -⟩
      rw [found] at here
      cases here
    rw [instFetch_missing found]
    exact ⟨_, after, memory, filled, by simp [unfetchable]⟩
  | some stream =>
    have fetchable : Fetchable fetch addr ↔ held addr stream ≠ initAddr ∧
        (addr.toNat % 4 ≠ 0 → Ready fetch (addr + 2)) := by
      constructor
      · rintro ⟨other, here, rest⟩
        rw [found] at here
        cases here
        exact rest
      · exact fun rest => ⟨stream, found, rest⟩
    rw [fetchable]
    by_cases waiting : held addr stream = initAddr
    · rw [instFetch_waiting found waiting]
      exact ⟨_, fetch, mem, rfl, by simp [waiting]⟩
    · by_cases whole : addr.toNat % 4 = 0
      · have ⟨after, memory, consumed⟩ :=
          consume_queues queues addr stream ⟨true, true, held addr stream⟩ fetch mem
        rw [instFetch_word found waiting based whole]
        exact ⟨_, after, memory, consumed, by simp [waiting, whole]⟩
      · have ⟨reply, between, memory, called, ready, _⟩ :=
          fetchUpper_ready queues based (addr + 2) 0 mem
        rw [instFetch_part found waiting based whole, called]
        dsimp only
        by_cases fetched : (reply.ok && reply.fetched) = true
        · have ⟨after, final, consumed⟩ := consume_queues queues addr stream
            ⟨true, true, held addr stream >>> 16 ||| reply.inst⟩ between memory
          rw [if_pos fetched]
          exact ⟨_, after, final, consumed,
            ⟨fun _ => ⟨waiting, fun _ => ready.mp fetched⟩, fun _ => rfl⟩⟩
        · rw [if_neg fetched]
          have unready : ¬ Ready fetch (addr + 2) := fun here => fetched (ready.mpr here)
          exact ⟨_, between, memory, rfl,
            ⟨fun impossible => (nomatch impossible),
              fun rest => absurd (rest.2 whole) unready⟩⟩

end Answers

/-- What is available can be fetched, and what is covered and complete is available, exactly where the
next word is asked for in the middle of a stream and no word looks unfilled. -/
theorem available_iff {fetch : RevPrefetcher} {mem : σ} (queues : Queues readVal)
    (delivered : Delivered readVal fetch mem) (addr : BitVec 64) :
    Available readVal addr fetch mem ↔ Usable addr fetch := by
  have based := (delivered_based delivered).based
  have ⟨flag, after, memory, called, sighted, kept⟩ := isAvail_sighted queues based addr mem
  constructor
  · intro available
    constructor
    · intro stream found filled middle part
      have seen : Sighted fetch addr := ⟨stream, found, filled, fun short => absurd short middle⟩
      have flagged := sighted.mpr seen
      have ⟨same, unchanged⟩ := kept flagged
      subst same unchanged
      rw [flagged] at called
      have ⟨reply, last, final, fetches, fetched⟩ := available.fetched _ _ called 0
      have ⟨other, _, _, again, fetchable⟩ := instFetch_fetchable queues based addr 0 memory
      rw [fetches] at again
      cases again
      have ⟨stream', here, _, upper⟩ := fetchable.mp fetched
      exact upper part
    · intro complete even covered
      have ⟨_, _, avail⟩ := available.complete complete even covered
      rw [called] at avail
      cases avail
      exact (sighted_iff_plain based complete even).mp (sighted.mp rfl)
  · intro usable
    constructor
    · intro between store avail inst
      rw [called] at avail
      cases avail
      have ⟨same, unchanged⟩ := kept rfl
      subst same unchanged
      have ⟨stream, found, filled, short⟩ := sighted.mp rfl
      have ⟨reply, last, final, fetches, fetchable⟩ :=
        instFetch_fetchable queues based addr inst memory
      refine ⟨reply, last, final, fetches, fetchable.mpr ⟨stream, found, filled, fun part => ?_⟩⟩
      by_cases ends : lastAddr after.depth stream - addr < 4
      · exact short ends
      · exact usable.upper stream found filled ends part
    · intro complete even covered
      have seen := (sighted_iff_plain based complete even).mpr (usable.plain complete even covered)
      have flagged := sighted.mpr seen
      rw [flagged] at called
      exact ⟨after, memory, called⟩

end Queued

section Program

/-- A controller that keeps the requests in a list. -/
def queued (addr : BitVec 64) (requests : List (BitVec 64)) :
    Except Empty (Option (BitVec 32) × List (BitVec 64)) := .ok (none, requests ++ [addr])

theorem queued_queues : Queues queued := fun addr requests => ⟨requests ++ [addr], rfl⟩

/-- A stream of two words at 0x1000, of which the first one or both have arrived. -/
def started : Stream := ⟨0x1000, fun _ => initAddr, fun _ => true⟩

def oneArrived (word : BitVec 32) : RevPrefetcher := ⟨2, [started.arrive 0 word]⟩

def bothArrived (first second : BitVec 32) : RevPrefetcher :=
  ⟨2, [(started.arrive 0 first).arrive 1 second]⟩

theorem oneArrived_delivered (word : BitVec 32) :
    Delivered queued (oneArrived word) [0x1000, 0x1004] := by
  have missed : isAvail queued 0x1000 ⟨2, []⟩ [] = .ok (false, ⟨2, [started]⟩, [0x1000, 0x1004]) := rfl
  have begun : Delivered queued ⟨2, [started]⟩ [0x1000, 0x1004] :=
    .isAvail 0x1000 (.start 2 []) missed
  exact .arrive 0 0 word _ begun rfl (by decide) rfl

theorem bothArrived_delivered (first second : BitVec 32) :
    Delivered queued (bothArrived first second) [0x1000, 0x1004] :=
  .arrive 0 1 second _ (oneArrived_delivered first) rfl Nat.one_lt_two rfl

-- Two halves from one stream, both of its words filled.
theorem available_iff_both : Available queued 0x1002 (bothArrived 1 2) [0x1000, 0x1004] := by
  rw [available_iff queued_queues (bothArrived_delivered 1 2)]
  constructor
  · intro _ _ _ _ _
    exact ⟨by decide, _, rfl, by decide⟩
  · intro _ _ covered
    have ⟨plain, upper⟩ := plain_of_covered (by decide) (by decide) (by decide) covered
    exact ⟨plain, fun _ _ _ => upper⟩

/-- With the next word on its way the address 0x1002 is available and its fetch is not complete; with
both words there, and the first of them 0xdeadbeef, 0x1000 is covered and never available. -/
theorem available_not_fetched :
    (∃ fetch mem, Delivered queued fetch mem ∧ ¬ Available queued 0x1002 fetch mem) ∧
      ∃ fetch mem, Delivered queued fetch mem ∧ Complete fetch ∧ Covered fetch 0x1000 ∧
        ¬ Available queued 0x1000 fetch mem := by
  constructor
  · refine ⟨_, _, oneArrived_delivered 1, fun available => ?_⟩
    have ⟨reply, last, final, fetches, fetched⟩ := available.fetched _ _ rfl 0
    have waits : instFetch queued 0x1002 0 (oneArrived 1) [0x1000, 0x1004] =
        .ok (⟨true, false, 0⟩, oneArrived 1, [0x1000, 0x1004]) := rfl
    rw [waits] at fetches
    cases fetches
    cases fetched
  · have complete : Complete (bothArrived 0xdeadbeef 2) := by
      rw [Complete]
      decide
    have covered : Covered (bothArrived 0xdeadbeef 2) 0x1000 := by
      rw [Covered]
      decide
    refine ⟨_, _, bothArrived_delivered 0xdeadbeef 2, complete, covered, fun available => ?_⟩
    have ⟨after, memory, avail⟩ := available.complete complete (by decide) covered
    have stalls : isAvail queued 0x1000 (bothArrived 0xdeadbeef 2) [0x1000, 0x1004] =
        .ok (false, bothArrived 0xdeadbeef 2, [0x1000, 0x1004]) := rfl
    rw [stalls] at avail
    cases avail

end Program
end RevCPU.Prefetch
