import RevCPU.PanFrame
import RevCPU.PanZeroAddr
/-!
A call of processPANZeroAddr: which puts it takes from the queue, where they go, and what else it writes. A
put that does not fit its buffer runs into the next one, and the scan may then end in any way.
-/
namespace RevCPU.Pan
open Mem MemRefine RegFile OldRead

section Slots
variable (flat : Nat → Byte)

def Free (slot : Nat) : Bool := flat (xferValid slot) == 0

/-- The slots that are read from one on, with the number of puts in the queue and of the turns to go. -/
def scannedFrom (slot : Nat) : Nat → Nat → List Nat
  | _, 0 => []
  | 0, _ + 1 => []
  | puts + 1, left + 1 => slot :: scannedFrom (slot + 1) (if Free flat slot then puts else puts + 1) left

def targetsFrom (slot puts left : Nat) : List Nat := (scannedFrom flat slot puts left).filter (Free flat)

variable {flat} {slot puts left : Nat}

theorem scannedFrom_end : scannedFrom flat slot puts 0 = [] := by
  cases puts <;> rfl

theorem scannedFrom_used (used : Free flat slot = false) :
    scannedFrom flat slot (puts + 1) (left + 1) = slot :: scannedFrom flat (slot + 1) (puts + 1) left := by
  rw [scannedFrom, used]
  rfl

theorem scannedFrom_free (free : Free flat slot = true) :
    scannedFrom flat slot (puts + 1) (left + 1) = slot :: scannedFrom flat (slot + 1) puts left := by
  rw [scannedFrom, free]
  rfl

theorem targetsFrom_used (used : Free flat slot = false) :
    targetsFrom flat slot (puts + 1) (left + 1) = targetsFrom flat (slot + 1) (puts + 1) left := by
  rw [targetsFrom, scannedFrom_used used, List.filter_cons, used]
  rfl

theorem targetsFrom_free (free : Free flat slot = true) :
    targetsFrom flat slot (puts + 1) (left + 1) = slot :: targetsFrom flat (slot + 1) puts left := by
  rw [targetsFrom, scannedFrom_free free, List.filter_cons, free]
  rfl

theorem scannedFrom_range {target : Nat} (member : target ∈ scannedFrom flat slot puts left) :
    slot ≤ target ∧ target < slot + left := by
  induction left generalizing slot puts with
  | zero =>
    cases puts <;> cases member
  | succ left ih =>
    cases puts with
    | zero => cases member
    | succ puts =>
      rw [scannedFrom, List.mem_cons] at member
      rcases member with rfl | later
      · omega
      · have inside := ih later
        omega

theorem scannedFrom_congr {other : Nat → Byte}
    (same : ∀ target, slot ≤ target → other (xferValid target) = flat (xferValid target)) :
    scannedFrom other slot puts left = scannedFrom flat slot puts left := by
  induction left generalizing slot puts with
  | zero => cases puts <;> rfl
  | succ left ih =>
    cases puts with
    | zero => rfl
    | succ puts =>
      have here : Free other slot = Free flat slot := congrArg (· == 0) (same slot (Nat.le_refl slot))
      rw [scannedFrom, scannedFrom, here, ih fun target later => same target (by omega)]

theorem targetsFrom_congr {other : Nat → Byte}
    (same : ∀ target, slot ≤ target → other (xferValid target) = flat (xferValid target)) :
    targetsFrom other slot puts left = targetsFrom flat slot puts left := by
  rw [targetsFrom, targetsFrom, scannedFrom_congr same]
  refine List.filter_congr fun target member => ?_
  exact congrArg (· == 0) (same target (scannedFrom_range member).1)

theorem targetsFrom_le : (targetsFrom flat slot puts left).length ≤ puts := by
  induction left generalizing slot puts with
  | zero => cases puts <;> exact Nat.zero_le _
  | succ left ih =>
    cases puts with
    | zero => exact Nat.le_refl 0
    | succ puts =>
      cases free : Free flat slot with
      | true =>
        rw [targetsFrom_free free]
        exact Nat.succ_le_succ ih
      | false =>
        rw [targetsFrom_used free]
        exact ih

theorem targetsFrom_nodup : (targetsFrom flat slot puts left).Nodup := by
  have distinct : (scannedFrom flat slot puts left).Nodup := by
    induction left generalizing slot puts with
    | zero => cases puts <;> exact List.nodup_nil
    | succ left ih =>
      cases puts with
      | zero => exact List.nodup_nil
      | succ puts =>
        rw [scannedFrom, List.nodup_cons]
        refine ⟨fun member => ?_, ih⟩
        have later := scannedFrom_range member
        omega
  exact distinct.filter _

theorem targetsFrom_found (waiting : 0 < puts) : targetsFrom flat slot puts left ≠ [] ↔
    ∃ target, slot ≤ target ∧ target < slot + left ∧ Free flat target = true := by
  constructor
  · intro found
    have ⟨target, member⟩ := List.exists_mem_of_ne_nil _ found
    rw [targetsFrom, List.mem_filter] at member
    have inside := scannedFrom_range member.1
    exact ⟨target, inside.1, inside.2, member.2⟩
  · induction left generalizing slot puts with
    | zero =>
      rintro ⟨target, above, below, _⟩
      omega
    | succ left ih =>
      rintro ⟨target, above, below, free⟩
      cases puts with
      | zero => cases waiting
      | succ puts =>
        cases here : Free flat slot with
        | true =>
          rw [targetsFrom_free here]
          exact List.cons_ne_nil _ _
        | false =>
          have apart : slot ≠ target := by
            rintro rfl
            cases here.symm.trans free
          rw [targetsFrom_used here]
          exact ih waiting ⟨target, by omega, by omega, free⟩

end Slots

section Fills
variable {before middle after : Nat → Byte} {slot : Nat} {put : BitVec 32 × Buffer} {targets : List Nat}
  {puts : List (BitVec 32 × Buffer)}

/-- The buffer is in use and holds the bytes of the put. -/
structure Holds (before after : Nat → Byte) (slot : Nat) (put : BitVec 32 × Buffer) : Prop where
  valid : after (xferValid slot) = 2
  fits : put.1.toNat ≤ xferBuf
  bytes : ∀ index < xferBuf, after (xferBuffer slot + index) =
    if index < put.1.toNat then put.2 index else before (xferBuffer slot + index)

/-- The puts are in the buffers named, in order, and the other buffers are as they were. -/
structure Fills (before after : Nat → Byte) (targets : List Nat) (puts : List (BitVec 32 × Buffer)) :
    Prop where
  holds : List.Forall₂ (Holds before after) targets puts
  others : ∀ slot < xferBuf, slot ∉ targets → ∀ index < 1 + xferBuf,
    after (xferValid slot + index) = before (xferValid slot + index)

def placed (flat : Nat → Byte) (slot : Nat) (put : BitVec 32 × Buffer) : Nat → Byte :=
  flatStore (flatStore flat (xferValid slot) 1 fun _ => 2) (xferBuffer slot) put.1.toNat put.2

theorem placed_other {other index : Nat} (fits : put.1.toNat ≤ xferBuf) (apart : other ≠ slot)
    (inside : index < 1 + xferBuf) : placed before slot put (xferValid other + index) =
      before (xferValid other + index) := by
  unfold xferBuf at fits inside
  have away : ¬ (xferBuffer slot ≤ xferValid other + index ∧
      xferValid other + index < xferBuffer slot + put.1.toNat) := by
    unfold xferBuffer xferValid xferBuf
    omega
  have awayValid : ¬ (xferValid slot ≤ xferValid other + index ∧
      xferValid other + index < xferValid slot + 1) := by
    unfold xferValid xferBuf
    omega
  rw [placed, flatStore, if_neg away, flatStore, if_neg awayValid]

theorem placed_holds (fits : put.1.toNat ≤ xferBuf) : Holds before (placed before slot put) slot put where
  valid := by
    have front : ¬ (xferBuffer slot ≤ xferValid slot ∧ xferValid slot < xferBuffer slot + put.1.toNat) := by
      unfold xferBuffer
      omega
    rw [placed, flatStore, if_neg front, flatStore, if_pos (by omega)]
  fits := fits
  bytes := by
    intro index inside
    rw [placed, flatStore]
    by_cases covered : index < put.1.toNat
    · rw [if_pos (by omega), if_pos covered, Nat.add_sub_cancel_left]
    · have behind : ¬ (xferValid slot ≤ xferBuffer slot + index ∧
          xferBuffer slot + index < xferValid slot + 1) := by
        unfold xferBuffer
        omega
      rw [if_neg (by omega), if_neg covered, flatStore, if_neg behind]

theorem Fills.cons (named : slot < xferBuf) (fits : put.1.toNat ≤ xferBuf)
    (later : ∀ target ∈ targets, target < xferBuf ∧ target ≠ slot)
    (fills : Fills (placed before slot put) after targets puts) :
    Fills before after (slot :: targets) (put :: puts) := by
  have fresh : slot ∉ targets := fun member => (later slot member).2 rfl
  have start : Holds before (placed before slot put) slot put := placed_holds fits
  constructor
  · constructor
    · refine ⟨?_, fits, ?_⟩
      · exact (fills.others slot named fresh 0 (by decide)).trans start.valid
      · intro index inside
        have place : xferBuffer slot + index = xferValid slot + (1 + index) := Nat.add_assoc _ _ _
        rw [place, fills.others slot named fresh (1 + index) (by omega), ← place]
        exact start.bytes index inside
    · have both := (List.forall₂_and_left _ _).mpr ⟨later, fills.holds⟩
      refine both.imp fun target other ⟨⟨_, apart⟩, held⟩ => ⟨held.valid, held.fits, ?_⟩
      intro index inside
      have place : xferBuffer target + index = xferValid target + (1 + index) := Nat.add_assoc _ _ _
      have same : placed before slot put (xferValid target + (1 + index)) =
          before (xferValid target + (1 + index)) := placed_other fits apart (by omega)
      rw [held.bytes index inside, place, same]
  · intro other inside away index bound
    rw [List.mem_cons, not_or] at away
    rw [fills.others other inside away.2 index bound]
    exact placed_other fits away.1 bound

end Fills

section Loop
variable {cpu : PanCPU} {tmpValid : Buffer} {slot left : Nat}

/-- What a read puts into the variable and behind it. -/
def Reads (flat : Nat → Byte) (slot : Nat) (tmpValid : Buffer) : Prop :=
  ∀ index < 8, tmpValid index = flat (xferValid slot + index)

theorem reads_load (flat : Nat → Byte) (slot : Nat) (tmpValid : Buffer) :
    Reads flat slot (flatLoad flat (xferValid slot) 8 tmpValid) := fun _ inside => if_pos inside

section Turn
variable (board : XferMem cpu.mem) (named : slot < rdmaMaxEntries) {put : BitVec 32 × Buffer}
  {rest : List (BitVec 32 × Buffer)} (queue : cpu.zeroRqst = put :: rest) (tmpValid : Buffer) (left : Nat)
include board named queue

theorem turn_used (used : Free (byteAt cpu.mem) slot = false) :
    ∃ mem, XferMem mem ∧ byteAt mem = byteAt cpu.mem ∧
    PanCPU.zeroFrom cpu tmpValid slot (left + 1) = PanCPU.zeroFrom { cpu with mem := mem }
      (flatLoad (byteAt cpu.mem) (xferValid slot) 8 tmpValid) (slot + 1) left ∧
    PanCPU.readsFrom cpu tmpValid slot (left + 1) = flatLoad (byteAt cpu.mem) (xferValid slot) 8 tmpValid ::
      PanCPU.readsFrom { cpu with mem := mem } (flatLoad (byteAt cpu.mem) (xferValid slot) 8 tmpValid)
        (slot + 1) left := by
  have ⟨mem, read, unseen⟩ := readValid board named tmpValid
  have first : ¬ flatLoad (byteAt cpu.mem) (xferValid slot) 8 tmpValid 0 = 0 := by
    rw [reads_load _ slot tmpValid 0 (by decide)]
    exact beq_eq_false_iff_ne.mp used
  refine ⟨mem, board.of_layout unseen.coherent unseen.layout, funext unseen.view, ?_, ?_⟩
  · rw [PanCPU.zeroFrom, queue]
    dsimp only
    rw [read]
    dsimp only
    rw [if_neg first, queue]
  · rw [PanCPU.readsFrom, queue]
    dsimp only
    rw [read]
    dsimp only
    rw [if_neg first, queue]

/-- A turn on a buffer that is free: the put is placed, and the loop goes on if that returns. -/
theorem turn_free (free : Free (byteAt cpu.mem) slot = true) :
    ∃ mem, XferMem mem ∧ byteAt mem = byteAt cpu.mem ∧
    (∀ fault, PanCPU.placePut { cpu with mem := mem } slot put.1 put.2 rest = .error fault →
      PanCPU.zeroFrom cpu tmpValid slot (left + 1) = .error fault) ∧
    ∀ next, PanCPU.placePut { cpu with mem := mem } slot put.1 put.2 rest = .ok next →
      PanCPU.zeroFrom cpu tmpValid slot (left + 1) = PanCPU.zeroFrom next
        (Function.update (flatLoad (byteAt cpu.mem) (xferValid slot) 8 tmpValid) 0 2) (slot + 1) left ∧
      PanCPU.readsFrom cpu tmpValid slot (left + 1) =
        flatLoad (byteAt cpu.mem) (xferValid slot) 8 tmpValid :: PanCPU.readsFrom next
          (Function.update (flatLoad (byteAt cpu.mem) (xferValid slot) 8 tmpValid) 0 2) (slot + 1) left := by
  have ⟨mem, read, unseen⟩ := readValid board named tmpValid
  have first : flatLoad (byteAt cpu.mem) (xferValid slot) 8 tmpValid 0 = 0 :=
    (reads_load _ slot tmpValid 0 (by decide)).trans (beq_iff_eq.mp free)
  refine ⟨mem, board.of_layout unseen.coherent unseen.layout, funext unseen.view, ?_, ?_⟩
  · intro fault failed
    rw [PanCPU.zeroFrom, queue]
    dsimp only
    rw [read]
    dsimp only
    rw [if_pos first, failed]
  · intro next wrote
    rw [PanCPU.zeroFrom, PanCPU.readsFrom, queue]
    dsimp only
    rw [read]
    dsimp only
    rw [if_pos first, if_pos first, wrote]
    exact ⟨rfl, rfl⟩

theorem turn_placed (free : Free (byteAt cpu.mem) slot = true) (small : put.1.toNat ≤ xferBuf) :
    ∃ mem, XferMem mem ∧ byteAt mem = placed (byteAt cpu.mem) slot put ∧
    PanCPU.zeroFrom cpu tmpValid slot (left + 1) = PanCPU.zeroFrom { cpu with mem := mem, zeroRqst := rest }
      (Function.update (flatLoad (byteAt cpu.mem) (xferValid slot) 8 tmpValid) 0 2) (slot + 1) left ∧
    PanCPU.readsFrom cpu tmpValid slot (left + 1) = flatLoad (byteAt cpu.mem) (xferValid slot) 8 tmpValid ::
      PanCPU.readsFrom { cpu with mem := mem, zeroRqst := rest }
        (Function.update (flatLoad (byteAt cpu.mem) (xferValid slot) 8 tmpValid) 0 2) (slot + 1) left := by
  have ⟨mem, boardMem, seen, _, goes⟩ := turn_free board named queue tmpValid left free
  have ⟨marked, wrote, boardAfter, stored⟩ :=
    placePut_fits { cpu with mem := mem } boardMem named put.2 rest small
  refine ⟨marked, boardAfter, ?_, goes _ wrote⟩
  funext vAddr
  rw [stored, seen]
  rfl

end Turn

theorem placed_later {flat : Nat → Byte} {put : BitVec 32 × Buffer} (small : put.1.toNat ≤ xferBuf)
    (target : Nat) (later : slot + 1 ≤ target) :
    placed flat slot put (xferValid target) = flat (xferValid target) :=
  placed_other small (by omega : target ≠ slot) (by decide : 0 < 1 + xferBuf)

theorem zeroFrom_fits (board : XferMem cpu.mem) (round : slot + left = rdmaMaxEntries)
    (fits : ∀ put ∈ cpu.zeroRqst.take (targetsFrom (byteAt cpu.mem) slot cpu.zeroRqst.length left).length,
      put.1.toNat ≤ xferBuf) :
    ∃ after last, PanCPU.zeroFrom cpu tmpValid slot left = .ok (after, last) ∧
      after.zeroRqst = cpu.zeroRqst.drop (targetsFrom (byteAt cpu.mem) slot cpu.zeroRqst.length left).length ∧
      Fills (byteAt cpu.mem) (byteAt after.mem) (targetsFrom (byteAt cpu.mem) slot cpu.zeroRqst.length left)
        (cpu.zeroRqst.take (targetsFrom (byteAt cpu.mem) slot cpu.zeroRqst.length left).length) ∧
      List.Forall₂ (Reads (byteAt cpu.mem)) (scannedFrom (byteAt cpu.mem) slot cpu.zeroRqst.length left)
        (PanCPU.readsFrom cpu tmpValid slot left) := by
  induction left generalizing cpu tmpValid slot with
  | zero =>
    rw [targetsFrom, scannedFrom_end]
    exact ⟨cpu, tmpValid, rfl, rfl, ⟨.nil, fun _ _ _ _ _ => rfl⟩, .nil⟩
  | succ left ih =>
    cases queue : cpu.zeroRqst with
    | nil =>
      rw [PanCPU.zeroFrom, PanCPU.readsFrom, queue]
      exact ⟨cpu, tmpValid, rfl, queue, ⟨.nil, fun _ _ _ _ _ => rfl⟩, .nil⟩
    | cons put rest =>
      have named : slot < rdmaMaxEntries := by omega
      have here := reads_load (byteAt cpu.mem) slot tmpValid
      rw [queue, List.length_cons] at fits
      rw [List.length_cons]
      cases free : Free (byteAt cpu.mem) slot with
      | false =>
        have ⟨mem, boardMem, seen, turned, read⟩ := turn_used board named queue tmpValid left free
        rw [queue] at turned read
        have next := @ih { cpu with mem := mem } (flatLoad (byteAt cpu.mem) (xferValid slot) 8 tmpValid)
          (slot + 1) boardMem (by omega)
        dsimp only at next
        rw [seen, queue, List.length_cons] at next
        rw [targetsFrom_used free] at fits
        have ⟨after, last, looped, dropped, fills, reads⟩ := next fits
        rw [turned, read, scannedFrom_used free, targetsFrom_used free]
        exact ⟨after, last, looped, dropped, fills, .cons here reads⟩
      | true =>
        rw [targetsFrom_free free, List.length_cons, List.take_succ_cons] at fits
        have small := fits put List.mem_cons_self
        have ⟨mem, boardMem, now, turned, read⟩ := turn_placed board named queue tmpValid left free small
        have next := @ih { cpu with mem := mem, zeroRqst := rest }
          (Function.update (flatLoad (byteAt cpu.mem) (xferValid slot) 8 tmpValid) 0 2) (slot + 1) boardMem
          (by omega)
        dsimp only at next
        rw [now, targetsFrom_congr (placed_later small), scannedFrom_congr (placed_later small)] at next
        have ⟨after, last, looped, dropped, fills, reads⟩ :=
          next fun put member => fits put (List.mem_cons_of_mem _ member)
        rw [turned, read, scannedFrom_free free, targetsFrom_free free, List.length_cons]
        refine ⟨after, last, looped, ?_, ?_, .cons here ?_⟩
        · rw [dropped, List.drop_succ_cons]
        · rw [List.take_succ_cons]
          refine fills.cons (by unfold xferBuf; unfold rdmaMaxEntries at named; omega) small ?_
          intro target member
          rw [targetsFrom, List.mem_filter] at member
          have inside := scannedFrom_range member.1
          unfold xferBuf
          unfold rdmaMaxEntries at round
          omega
        · have later (target : Nat)
              (member : target ∈ scannedFrom (byteAt cpu.mem) (slot + 1) rest.length left) : slot < target :=
            (scannedFrom_range member).1
          have both := (List.forall₂_and_left _ _).mpr ⟨later, reads⟩
          refine both.imp fun target host ⟨behind, read⟩ index inside => ?_
          rw [read index inside]
          exact placed_other small (by omega) (by unfold xferBuf; omega)

theorem placePut_queue {cpu after : PanCPU} {slot : Nat} {size : BitVec 32} {data : Buffer}
    {rest : List (BitVec 32 × Buffer)} (wrote : cpu.placePut slot size data rest = .ok after) :
    after.zeroRqst = rest := by
  rw [PanCPU.placePut] at wrote
  cases marked : cpu.mem.writeMem 0 (xferValid slot) 1 (fun _ => 2) with
  | error fault =>
    rw [marked] at wrote
    cases wrote
  | ok first =>
    rw [marked] at wrote
    dsimp only at wrote
    cases stored : first.writeMem 0 (xferBuffer slot) size.toNat data with
    | error fault =>
      rw [stored] at wrote
      cases wrote
    | ok second =>
      rw [stored] at wrote
      cases wrote
      rfl

theorem zeroFrom_drops {after : PanCPU} {last : Buffer}
    (looped : PanCPU.zeroFrom cpu tmpValid slot left = .ok (after, last)) :
    ∃ count ≤ cpu.zeroRqst.length, after.zeroRqst = cpu.zeroRqst.drop count := by
  induction left generalizing cpu tmpValid slot with
  | zero =>
    cases looped
    exact ⟨0, Nat.zero_le _, rfl⟩
  | succ left ih =>
    rw [PanCPU.zeroFrom] at looped
    cases queue : cpu.zeroRqst with
    | nil =>
      rw [queue] at looped
      cases looped
      exact ⟨0, Nat.zero_le _, queue⟩
    | cons put rest =>
      rcases put with ⟨size, data⟩
      rw [queue] at looped
      dsimp only at looped
      cases read : cpu.readBytes (BitVec.ofNat 64 (xferValid slot)) 8 tmpValid with
      | error fault =>
        rw [read] at looped
        cases looped
      | ok result =>
        rcases result with ⟨loaded, middle⟩
        have same := (readBytes_aside read).zeroRqst
        rw [read] at looped
        dsimp only at looped
        by_cases empty : loaded 0 = 0
        · rw [if_pos empty] at looped
          cases wrote : middle.placePut slot size data rest with
          | error fault =>
            rw [wrote] at looped
            cases looped
          | ok placed =>
            rw [wrote] at looped
            have ⟨count, bound, dropped⟩ := ih looped
            rw [placePut_queue wrote] at bound dropped
            exact ⟨count + 1, Nat.succ_le_succ bound, dropped⟩
        · rw [if_neg empty] at looped
          have ⟨count, bound, dropped⟩ := ih looped
          rw [same, queue] at bound dropped
          exact ⟨count, bound, dropped⟩

theorem zeroFrom_spills (board : XferMem cpu.mem) (round : slot + left = rdmaMaxEntries)
    (spills : ∃ put ∈ cpu.zeroRqst.take (targetsFrom (byteAt cpu.mem) slot cpu.zeroRqst.length left).length,
      ¬ put.1.toNat ≤ xferBuf) {after : PanCPU} {last : Buffer}
    (looped : PanCPU.zeroFrom cpu tmpValid slot left = .ok (after, last)) :
    ∃ count ≤ cpu.zeroRqst.length, after.zeroRqst = cpu.zeroRqst.drop count ∧
      ∃ put ∈ cpu.zeroRqst.take count, ¬ put.1.toNat ≤ xferBuf := by
  induction left generalizing cpu tmpValid slot with
  | zero =>
    rw [targetsFrom, scannedFrom_end] at spills
    rcases spills with ⟨put, member, _⟩
    cases member
  | succ left ih =>
    cases queue : cpu.zeroRqst with
    | nil =>
      rw [queue, List.take_nil] at spills
      rcases spills with ⟨put, member, _⟩
      cases member
    | cons put rest =>
      have named : slot < rdmaMaxEntries := by omega
      rw [queue, List.length_cons] at spills
      cases free : Free (byteAt cpu.mem) slot with
      | false =>
        have ⟨mem, boardMem, seen, turned, _⟩ := turn_used board named queue tmpValid left free
        rw [queue] at turned
        have next := @ih { cpu with mem := mem } (flatLoad (byteAt cpu.mem) (xferValid slot) 8 tmpValid)
          (slot + 1) boardMem (by omega)
        dsimp only at next
        rw [seen, queue, List.length_cons] at next
        rw [targetsFrom_used free] at spills
        exact next spills (turned.symm.trans looped)
      | true =>
        rw [targetsFrom_free free, List.length_cons, List.take_succ_cons] at spills
        by_cases small : put.1.toNat ≤ xferBuf
        · have ⟨mem, boardMem, now, turned, _⟩ := turn_placed board named queue tmpValid left free small
          have next := @ih { cpu with mem := mem, zeroRqst := rest }
            (Function.update (flatLoad (byteAt cpu.mem) (xferValid slot) 8 tmpValid) 0 2) (slot + 1) boardMem
            (by omega)
          dsimp only at next
          rw [now, targetsFrom_congr (placed_later small)] at next
          rcases spills with ⟨other, member, large⟩
          rw [List.mem_cons] at member
          rcases member with rfl | member
          · exact absurd small large
          · have ⟨count, bound, dropped, found, inside, wide⟩ :=
              next ⟨other, member, large⟩ (turned.symm.trans looped)
            exact ⟨count + 1, Nat.succ_le_succ bound, dropped, found, List.mem_cons_of_mem _ inside, wide⟩
        · have ⟨mem, _, _, fails, goes⟩ := turn_free board named queue tmpValid left free
          cases wrote : PanCPU.placePut { cpu with mem := mem } slot put.1 put.2 rest with
          | error fault => cases (fails fault wrote).symm.trans looped
          | ok next =>
            have ⟨count, bound, dropped⟩ := zeroFrom_drops ((goes next wrote).1.symm.trans looped)
            rw [placePut_queue wrote] at bound dropped
            exact ⟨count + 1, Nat.succ_le_succ bound, dropped, put, List.mem_cons_self, small⟩

end Loop

section Call
variable (cpu : PanCPU) (host : Buffer)

/-- What the reads of a call leave in the variable and behind it. -/
def hostReads : List Buffer :=
  if cpu.zeroRqst.isEmpty then []
  else PanCPU.readsFrom cpu (Function.update host 0 0) 0 rdmaMaxEntries

/-- The first puts of the queue are in buffers that were free, one each, and nothing else is written. -/
structure Placement (cpu after : PanCPU) (targets : List Nat) : Prop where
  count : targets.length ≤ cpu.zeroRqst.length
  queue : after.zeroRqst = cpu.zeroRqst.drop targets.length
  apart : targets.Nodup
  free : ∀ slot ∈ targets, slot < xferBuf ∧ Free (byteAt cpu.mem) slot = true
  fills : Fills (byteAt cpu.mem) (byteAt after.mem) targets (cpu.zeroRqst.take targets.length)
  progress : cpu.zeroRqst ≠ [] → (∃ slot < xferBuf, Free (byteAt cpu.mem) slot = true) → targets ≠ []

/-- A call places puts, at least one where there are a put and a free buffer, and leaves the host alone. -/
def Places : Prop := ∃ after last targets, cpu.processPANZeroAddr host = .ok (after, last) ∧
  Placement cpu after targets ∧
  ∀ seen ∈ hostReads cpu host, ∀ index, 1 ≤ index → index < 8 → seen index = host index

/-- The slots that a call reads, and those that it takes. -/
def scanned : List Nat := scannedFrom (byteAt cpu.mem) 0 cpu.zeroRqst.length rdmaMaxEntries
def taken : List Nat := targetsFrom (byteAt cpu.mem) 0 cpu.zeroRqst.length rdmaMaxEntries

/-- The puts that find a buffer fit it, the bytes of the host are by chance those behind each byte that is
read, and where some buffer is free one of the first 255 is. -/
structure Fitting : Prop where
  sizes : ∀ put ∈ cpu.zeroRqst.take (taken cpu).length, put.1.toNat ≤ xferBuf
  host : ∀ slot ∈ scanned cpu, ∀ index, 1 ≤ index → index < 8 →
    byteAt cpu.mem (xferValid slot + index) = host index
  found : cpu.zeroRqst ≠ [] → (∃ slot < xferBuf, Free (byteAt cpu.mem) slot = true) →
    ∃ slot < rdmaMaxEntries, Free (byteAt cpu.mem) slot = true

variable {cpu host}

theorem taken_found (waiting : cpu.zeroRqst ≠ []) :
    taken cpu ≠ [] ↔ ∃ slot < rdmaMaxEntries, Free (byteAt cpu.mem) slot = true := by
  rw [taken, targetsFrom_found (List.length_pos_of_ne_nil waiting)]
  constructor
  · rintro ⟨slot, _, inside, free⟩
    exact ⟨slot, by omega, free⟩
  · rintro ⟨slot, inside, free⟩
    exact ⟨slot, Nat.zero_le _, by omega, free⟩

theorem process_fits (host : Buffer) (board : XferMem cpu.mem)
    (sizes : ∀ put ∈ cpu.zeroRqst.take (taken cpu).length, put.1.toNat ≤ xferBuf) :
    ∃ after last, cpu.processPANZeroAddr host = .ok (after, last) ∧
      after.zeroRqst = cpu.zeroRqst.drop (taken cpu).length ∧
      Fills (byteAt cpu.mem) (byteAt after.mem) (taken cpu) (cpu.zeroRqst.take (taken cpu).length) ∧
      List.Forall₂ (Reads (byteAt cpu.mem)) (scanned cpu) (hostReads cpu host) := by
  rw [PanCPU.processPANZeroAddr, hostReads]
  cases queue : cpu.zeroRqst with
  | nil =>
    rw [taken, scanned, queue]
    exact ⟨cpu, host, rfl, queue, ⟨.nil, fun _ _ _ _ _ => rfl⟩, .nil⟩
  | cons put rest =>
    rw [← queue]
    have waiting : cpu.zeroRqst.isEmpty = false := by
      rw [queue]
      rfl
    rw [waiting]
    exact zeroFrom_fits board (Nat.zero_add _) sizes

theorem process_drops {after : PanCPU} {last : Buffer}
    (called : cpu.processPANZeroAddr host = .ok (after, last)) :
    ∃ count ≤ cpu.zeroRqst.length, after.zeroRqst = cpu.zeroRqst.drop count := by
  rw [PanCPU.processPANZeroAddr] at called
  split_ifs at called
  · cases called
    exact ⟨0, Nat.zero_le _, rfl⟩
  · exact zeroFrom_drops called

theorem Fills.fits {before after : Nat → Byte} {targets : List Nat} {puts : List (BitVec 32 × Buffer)}
    (fills : Fills before after targets puts) : ∀ put ∈ puts, put.1.toNat ≤ xferBuf := by
  have holds := fills.holds
  clear fills
  induction holds with
  | nil => exact fun put member => absurd member List.not_mem_nil
  | cons held _ ih => exact List.forall_mem_cons.mpr ⟨held.fits, ih⟩

theorem reads_host {flat : Nat → Byte} {slots : List Nat} {reads : List Buffer}
    (read : List.Forall₂ (Reads flat) slots reads) :
    (∀ seen ∈ reads, ∀ index, 1 ≤ index → index < 8 → seen index = host index) ↔
      ∀ slot ∈ slots, ∀ index, 1 ≤ index → index < 8 → flat (xferValid slot + index) = host index := by
  induction read with
  | nil =>
    constructor
    · exact fun _ _ member => absurd member List.not_mem_nil
    · exact fun _ _ member => absurd member List.not_mem_nil
  | @cons slot seen slots reads first _ ih =>
    rw [List.forall_mem_cons, List.forall_mem_cons, ih]
    refine and_congr_left fun _ => ?_
    constructor
    · intro same index low high
      rw [← first index high]
      exact same index low high
    · intro same index low high
      rw [first index high]
      exact same index low high

theorem drop_count {α : Type} {list : List α} {one other : Nat} (first : one ≤ list.length)
    (second : other ≤ list.length) (same : list.drop one = list.drop other) : one = other := by
  have lengths := congrArg List.length same
  rw [List.length_drop, List.length_drop] at lengths
  omega

theorem places_iff (board : XferMem cpu.mem) : Places cpu host ↔ Fitting cpu host := by
  constructor
  · rintro ⟨after, last, targets, called, placement, quiet⟩
    have sizes : ∀ put ∈ cpu.zeroRqst.take (taken cpu).length, put.1.toNat ≤ xferBuf := by
      by_contra never
      have spills : ∃ put ∈ cpu.zeroRqst.take (taken cpu).length, ¬ put.1.toNat ≤ xferBuf := by
        push Not at never ⊢
        exact never
      have looped := called
      rw [PanCPU.processPANZeroAddr] at looped
      split_ifs at looped with empty
      · rw [List.isEmpty_iff.mp empty, List.take_nil] at spills
        rcases spills with ⟨_, member, _⟩
        cases member
      · have ⟨count, bound, dropped, put, member, large⟩ :=
          zeroFrom_spills board (Nat.zero_add _) spills looped
        have same := drop_count bound placement.count (dropped.symm.trans placement.queue)
        rw [same] at member
        exact large (placement.fills.fits put member)
    have ⟨_, _, again, dropped, _, reads⟩ := process_fits host board sizes
    cases again.symm.trans called
    refine ⟨sizes, (reads_host reads).mp quiet, fun waiting free => (taken_found waiting).mp ?_⟩
    have same := drop_count targetsFrom_le placement.count (dropped.symm.trans placement.queue)
    have some := List.length_pos_of_ne_nil (placement.progress waiting free)
    rw [← same] at some
    exact List.ne_nil_of_length_pos some
  · intro fitting
    have ⟨after, last, called, dropped, fills, reads⟩ := process_fits host board fitting.sizes
    refine ⟨after, last, taken cpu, called, ⟨targetsFrom_le, dropped, targetsFrom_nodup, ?_, fills, ?_⟩, ?_⟩
    · intro slot member
      rw [taken, targetsFrom, List.mem_filter] at member
      have inside := scannedFrom_range member.1
      refine ⟨?_, member.2⟩
      unfold rdmaMaxEntries at inside
      unfold xferBuf
      omega
    · exact fun waiting free => (taken_found waiting).mpr (fitting.found waiting free)
    · exact (reads_host reads).mpr fitting.host

end Call
end RevCPU.Pan
