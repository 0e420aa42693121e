import RevCPU.Insns.Float
import RevCPU.Isa
/-!
The loads and stores of the table functions against the manual's, in both widths. A table function
reads into the register it loads, the manual into a fresh word, so the first step is that `ReadMem`
does not depend on what its target held. Each function is then specified by one equation between its
immediate and the expansion's offset.
-/
namespace RevCPU.LoadStore
open Feature InstTable Mem RegFile Insns Manual Isa

section Target

/-- Two outcomes of a copy that agree on `good` indices, or fail alike. -/
inductive SameBytes (good : Nat → Prop) : Except MemFault Buffer → Except MemFault Buffer → Prop
  | error (fault : MemFault) : SameBytes good (.error fault) (.error fault)
  | ok (left right : Buffer) (agree : ∀ index, good index → left index = right index) :
      SameBytes good (.ok left) (.ok right)

theorem copyOut_sameBytes (mem : RevMem) (base cur : Nat) (left right : Buffer) (count : Nat)
    (good : Nat → Prop) (agree : ∀ index, good index → left index = right index) :
    SameBytes (fun index => good index ∨ cur ≤ index ∧ index < cur + count)
      (mem.copyOut base cur left count) (mem.copyOut base cur right count) := by
  induction count with
  | zero =>
    refine .ok left right ?_
    rintro index (kept | ⟨_, _⟩)
    · exact agree index kept
    · omega
  | succ count ih =>
    rw [RevMem.copyOut, RevMem.copyOut]
    generalize mem.copyOut base cur left count = one at ih ⊢
    generalize mem.copyOut base cur right count = other at ih ⊢
    cases ih with
    | error fault => exact .error fault
    | ok first second same =>
      by_cases bound : base + count < mem.memSize
      · simp only [if_pos bound]
        refine .ok _ _ ?_
        intro index inside
        by_cases last : index = cur + count
        · rw [last, Function.update_self, Function.update_self]
        · rw [Function.update_of_ne last, Function.update_of_ne last]
          exact same index (inside.imp id fun range => ⟨range.1, by omega⟩)
      · simp only [if_neg bound]
        exact .error _

theorem locate_covers (mem : RevMem) (addr len : Nat) (extent : RevMem.Extent) (after : RevMem)
    (short : len < 2 ^ 32) (located : mem.locate addr len = .ok (extent, after)) (index : Nat)
    (inside : index < len) :
    index < extent.count ∨ extent.count ≤ index ∧ index < extent.count + extent.span := by
  simp only [RevMem.locate] at located
  split at located
  · cases located
  · split at located
    · split at located
      · cases located
      · cases located
        simp only
        omega
    · cases located
      simp only
      omega

/-- What `ReadMem` delivers, and how it fails, does not depend on the target's old contents. -/
theorem readMem_target (mem : RevMem) (hart addr len : Nat) (left right : Buffer)
    (flags other : Nat) (short : len < 2 ^ 32) :
    (∃ fault, mem.readMem hart addr len left flags = .error fault ∧
      mem.readMem hart addr len right other = .error fault) ∨
    ∃ first second after, mem.readMem hart addr len left flags = .ok (first, after) ∧
      mem.readMem hart addr len right other = .ok (second, after) ∧
      ∀ index, index < len → first.target index = second.target index := by
  unfold RevMem.readMem
  cases located : mem.locate addr len with
  | error fault => exact .inl ⟨fault, rfl, rfl⟩
  | ok placed =>
    obtain ⟨extent, after⟩ := placed
    have head := copyOut_sameBytes after extent.physAddr 0 left right extent.count
      (fun _ => False) (fun _ never => never.elim)
    simp only
    generalize after.copyOut extent.physAddr 0 left extent.count = one at head ⊢
    generalize after.copyOut extent.physAddr 0 right extent.count = two at head ⊢
    cases head with
    | error fault => exact .inl ⟨fault, rfl, rfl⟩
    | ok first second agree =>
      have tail := copyOut_sameBytes after extent.adjPhysAddr extent.count first second extent.span
        _ agree
      simp only
      generalize after.copyOut extent.adjPhysAddr extent.count first extent.span = one at tail ⊢
      generalize after.copyOut extent.adjPhysAddr extent.count second extent.span = two at tail ⊢
      cases tail with
      | error fault => exact .inl ⟨fault, rfl, rfl⟩
      | ok third fourth same =>
        refine .inr ⟨_, _, _, rfl, rfl, ?_⟩
        intro index inside
        apply same
        have covered := locate_covers mem addr len extent after short located index inside
        omega

end Target

section Meaning

theorem bytesOf_setWidth {v : Nat} (value : BitVec v) (fits : v ≤ 64) :
    bytesOf (value.setWidth 64) = bytesOf value := by
  funext index
  apply BitVec.eq_of_getLsbD_eq
  intro i inside
  simp only [bytesOf, BitVec.getLsbD_extractLsb', BitVec.getLsbD_setWidth]
  by_cases low : 8 * index + i < 64
  · simp [low]
  · simp [low, BitVec.getLsbD_of_ge value (8 * index + i) (by omega)]

theorem word64_bytesOf {v : Nat} (value : BitVec v) :
    word64 (bytesOf value) = value.setWidth 64 := by
  apply BitVec.eq_of_getLsbD_eq
  intro i inside
  simp only [word64, word32, bytesOf, BitVec.getLsbD_append, BitVec.getLsbD_extractLsb',
    BitVec.getLsbD_setWidth]
  interval_cases i <;>
    simp only [Nat.reduceLT, Nat.reduceAdd, Nat.reduceSub, decide_true, ↓reduceIte, Bool.true_and]

-- The value read depends on the bytes read.
theorem word32_congr (left right : Buffer) (agree : ∀ index, index < 4 → left index = right index) :
    word32 left = (word64 right).setWidth 32 := by
  have low : (word64 right).setWidth 32 = word32 right := BitVec.setWidth_append_eq_right
  rw [low, word32, word32, agree 0 (by decide), agree 1 (by decide), agree 2 (by decide),
    agree 3 (by decide)]

variable (plan : Plan) (isa : IsaPlan)

/-- A load means the expansion's once its result depends on the bytes read as the manual says; what
is left is the address. -/
theorem means_load_iff (addr other : BitVec 64) (len : Nat) (target : Buffer) (flags : Nat)
    (short : len < 2 ^ 32) (reads : plan.access = .read addr len target flags)
    (loads : isa.access = .load other len)
    (finish : ∀ left right : Buffer, (∀ index, index < len → left index = right index) →
      plan.finish left = isa.finish (word64 right)) :
    Means plan isa ↔ addr = other := by
  constructor
  · intro means
    have same := means.access
    rw [reads, loads] at same
    exact (IsaAccess.load.inj same).1
  · rintro rfl
    refine ⟨by rw [reads, loads]; rfl, ?_⟩
    intro hart mem
    simp only [Plan.run, IsaPlan.run, reads, loads]
    rcases readMem_target mem hart addr.toNat len target (fun _ => 0) flags 0 short with
      ⟨fault, left, right⟩ | ⟨first, second, after, left, right, agree⟩
    · rw [left, right]
    · rw [left, right]
      simp only [finish first.target second.target agree]

theorem means_store_iff {v : Nat} (addr other : BitVec 64) (len : Nat) (value : BitVec v)
    (fits : v ≤ 64) (stored : BitVec 64) (writes : plan.access = .write addr len (bytesOf value))
    (stores : isa.access = .store other len stored)
    (finish : ∀ buffer loaded, plan.finish buffer = isa.finish loaded) :
    Means plan isa ↔ addr = other ∧ value.setWidth 64 = stored := by
  constructor
  · intro means
    have same := means.access
    rw [writes, stores] at same
    obtain ⟨place, -, content⟩ := IsaAccess.store.inj same
    exact ⟨place, (word64_bytesOf value).symm.trans content⟩
  · rintro ⟨rfl, rfl⟩
    refine ⟨by rw [writes, stores, eraseAccess, word64_bytesOf], ?_⟩
    intro hart mem
    simp only [Plan.run, IsaPlan.run, writes, stores, bytesOf_setWidth value fits]
    cases mem.writeMem hart addr.toNat len (bytesOf value) with
    | error fault => rfl
    | ok after => simp only [finish _ 0]

end Meaning

/-- Immediates whose 12-bit sign extension changes nothing. -/
def Small (imm : BitVec 32) : Prop := imm.getLsbD 11 = false ∧ imm.msb = false

section Address
variable (feature : RevFeature) (regs : RevRegFile) (inst : RevInst) (rs1 : BitVec 5)
variable (imm : BitVec 32) (offset : BitVec 12)
variable (source : inst.rs1 = rs1.setWidth 8) (plain : offset.msb = false)

theorem tdU32_small (small : Small imm) : tdU32 imm 12 = imm := by
  have clear : ¬ imm.getLsbD (12 - 1) = true := by
    rw [small.1]
    decide
  rw [tdU32, twosComplement, if_neg clear]

include plain in
-- Both immediates widened to 64 bits.
theorem widened_iff : imm.setWidth 64 = offset.signExtend 64 ↔ imm = offset.setWidth 32 := by
  rw [BitVec.signExtend_eq_setWidth_of_msb_false plain]
  constructor
  · intro same
    have low := congrArg (fun x => x.setWidth 32) same
    simpa using low
  · rintro rfl
    exact BitVec.setWidth_setWidth (by decide)

include source plain

theorem address_wide_iff (wide : isRV32 feature = false) (small : Small imm) :
    RV32I.address feature regs inst imm = effective rv64 regs rs1 offset ↔
      imm = offset.setWidth 32 := by
  simp only [RV32I.address, wide, tdU32_small imm small, effective, BitVec.setWidth_eq, source,
    BitVec.signExtend_eq_setWidth_of_msb_false small.2]
  refine Iff.trans ?_ (widened_iff imm offset plain)
  exact BitVec.add_right_inj _

theorem address_narrow_iff (narrow : isRV32 feature = true) (small : Small imm) :
    RV32I.address feature regs inst imm = effective rv32 regs rs1 offset ↔
      imm = offset.setWidth 32 := by
  simp only [RV32I.address, narrow, tdU32_small imm small, effective, source,
    BitVec.signExtend_eq_setWidth_of_msb_false plain]
  constructor
  · intro same
    have low := congrArg (fun x => x.setWidth 32) same
    simp only [if_true, BitVec.setWidth_setWidth_of_le _ (show 32 ≤ 64 by decide),
      BitVec.setWidth_eq] at low
    exact (BitVec.add_right_inj _).mp low
  · rintro rfl
    rfl

end Address

section Functions
variable (feature : RevFeature) (regs : RevRegFile) (inst : RevInst) {n : Nat}
variable (rd rs1 rs2 : BitVec 5) (offset : BitVec 12) (size : inst.instSize = n)
variable (dest : inst.rd = rd.setWidth 8)
include size

-- What a function of either width has to do is reach the manual's address.
section Wide
variable (wide : isRV32 feature = false)
include wide

include dest in
theorem lw_wide_iff :
    Means (RV32I.lw feature regs inst) (isaStep rv64 n regs (.int (.i .lw rd rs1 offset))) ↔
      RV32I.address feature regs inst inst.imm = effective rv64 regs rs1 offset := by
  simp only [RV32I.lw, wide, Bool.false_eq_true, if_false]
  refine means_load_iff _ _ _ _ 4 _ _ (by decide) rfl rfl ?_
  intro left right agree
  have low : (word64 left).setWidth 32 = word32 left := BitVec.setWidth_append_eq_right
  have masked : word64 left &&& 0xFFFFFFFF = (word32 left).setWidth 64 :=
    low ▸ low_mask (word64 left) 32
  have word : sext (word64 left &&& 0xFFFFFFFF) 32 =
      ((word64 right).setWidth 32).signExtend 64 := by
    rw [masked, word32_congr left right agree]
    exact sext_setWidth _ (by decide) (by decide)
  simp only [dest, RevRegFile.setX64_update _ _ _ (fun x => x &&& 0xFFFFFFFF),
    RevRegFile.setX64_update _ _ _ (fun x => sext x 32), word, step64_retire regs inst size]
  rfl

theorem sw_wide_iff :
    Means (RV32I.sw feature regs inst) (isaStep rv64 n regs (.int (.s .sw rs1 rs2 offset))) ↔
      RV32I.address feature regs inst inst.imm = effective rv64 regs rs1 offset ∧
        (regs.x64 inst.rs2).setWidth 32 = (reg rv64 regs rs2).setWidth 32 := by
  rw [← Bits.setWidth_inj (v := 32) (w := 64) _ _ (by decide)]
  simp only [RV32I.sw, wide, Bool.false_eq_true, if_false]
  refine means_store_iff _ _ _ _ 4 _ (by decide) _ rfl rfl ?_
  intro buffer loaded
  exact step64_skip regs inst size

end Wide

section Narrow
variable (narrow : isRV32 feature = true)
include narrow

include dest in
theorem lw_narrow_iff :
    Means (RV32I.lw feature regs inst) (isaStep rv32 n regs (.int (.i .lw rd rs1 offset))) ↔
      RV32I.address feature regs inst inst.imm = effective rv32 regs rs1 offset := by
  simp only [RV32I.lw, narrow, if_true]
  refine means_load_iff _ _ _ _ 4 _ _ (by decide) rfl rfl ?_
  intro left right agree
  have word : sextImm (word32 left &&& 0xFFFFFFFF) 32 =
      ((word64 right).setWidth 32).signExtend 32 := by
    have masked : word32 left &&& 0xFFFFFFFF = (word32 left).setWidth 32 := by
      refine (low_mask _ 32).trans ?_
      rw [BitVec.setWidth_eq]
    rw [masked, word32_congr left right agree]
    exact sextImm_setWidth _ (by decide) (by decide)
  simp only [dest, RevRegFile.setX32_update _ _ _ (fun x => x &&& 0xFFFFFFFF),
    RevRegFile.setX32_update _ _ _ (fun x => sextImm x 32), word, step32_retire regs inst size]
  rfl

theorem sw_narrow_iff :
    Means (RV32I.sw feature regs inst) (isaStep rv32 n regs (.int (.s .sw rs1 rs2 offset))) ↔
      RV32I.address feature regs inst inst.imm = effective rv32 regs rs1 offset ∧
        (regs.x32 inst.rs2).setWidth 32 = (reg rv32 regs rs2).setWidth 32 := by
  rw [← Bits.setWidth_inj (v := 32) (w := 64) _ _ (by decide), BitVec.setWidth_eq]
  simp only [RV32I.sw, narrow, if_true]
  refine means_store_iff _ _ _ _ 4 _ (by decide) _ rfl rfl ?_
  intro buffer loaded
  exact step32_skip regs inst size

end Narrow

include dest in
theorem ld_iff :
    Means (RV64I.ld regs inst) (isaStep rv64 n regs (.int (.i .ld rd rs1 offset))) ↔
      regs.x64 inst.rs1 + (tdU32 inst.imm 12).signExtend 64 = effective rv64 regs rs1 offset := by
  refine means_load_iff _ _ _ _ 8 _ _ (by decide) rfl rfl ?_
  intro left right agree
  simp only [RV64I.ld, dest, word64_congr left right agree, step64_retire regs inst size]
  exact congrArg _ (BitVec.setWidth_eq _).symm

theorem sd_iff :
    Means (RV64I.sd regs inst) (isaStep rv64 n regs (.int (.s .sd rs1 rs2 offset))) ↔
      regs.x64 inst.rs1 + tdU64 (inst.imm.setWidth 64) 12 = effective rv64 regs rs1 offset ∧
        regs.x64 inst.rs2 = reg rv64 regs rs2 := by
  have stored := means_store_iff (RV64I.sd regs inst)
    (isaStep rv64 n regs (.int (.s .sd rs1 rs2 offset))) _ (effective rv64 regs rs1 offset) 8
    (regs.x64 inst.rs2) (by decide) (((reg rv64 regs rs2).setWidth 64).setWidth 64) rfl rfl ?_
  · rwa [BitVec.setWidth_eq, BitVec.setWidth_eq, BitVec.setWidth_eq] at stored
  · intro buffer loaded
    exact step64_skip regs inst size

end Functions

/-- The accesses both widths have. A load is right when its immediate is the offset; a store when in
addition the register it takes holds the value of rs2. -/
structure Accesses {w : Nat} (mode : Xlen w) (feature : RevFeature) : Prop where
  lw : ∀ (regs : RevRegFile) (inst : RevInst) (rd rs1 : BitVec 5) (offset : BitVec 12),
    inst.instSize = 2 → inst.rd = rd.setWidth 8 → inst.rs1 = rs1.setWidth 8 → Small inst.imm →
    offset.msb = false →
    (Means (RV32I.lw feature regs inst) (isaStep mode 2 regs (.int (.i .lw rd rs1 offset))) ↔
      inst.imm = offset.setWidth 32)
  sw : ∀ (regs : RevRegFile) (inst : RevInst) (rs1 rs2 : BitVec 5) (offset : BitVec 12),
    inst.instSize = 2 → inst.rs1 = rs1.setWidth 8 → Small inst.imm → offset.msb = false →
    (Means (RV32I.sw feature regs inst) (isaStep mode 2 regs (.int (.s .sw rs1 rs2 offset))) ↔
      inst.imm = offset.setWidth 32 ∧
        (mode.x regs inst.rs2).setWidth 32 = (reg mode regs rs2).setWidth 32)
  fld : ∀ (regs : RevRegFile) (inst : RevInst) (rd rs1 : BitVec 5) (offset : BitVec 12),
    inst.instSize = 2 → inst.rd = rd.setWidth 8 → inst.rs1 = rs1.setWidth 8 → Small inst.imm →
    offset.msb = false →
    (Means (RV32D.fld feature regs inst) (isaStep mode 2 regs (.fld rd rs1 offset)) ↔
      inst.imm = offset.setWidth 32)
  fsd : ∀ (regs : RevRegFile) (inst : RevInst) (rs1 rs2 : BitVec 5) (offset : BitVec 12),
    inst.instSize = 2 → inst.rs1 = rs1.setWidth 8 → offset.msb = false →
    (Means (RV32D.fsd feature regs inst) (isaStep mode 2 regs (.fsd rs1 rs2 offset)) ↔
      inst.imm = offset.setWidth 32 ∧ regs.dpf inst.rs2 = regs.dpf (rs2.setWidth 8))

theorem accesses_wide (feature : RevFeature) (wide : isRV32 feature = false) :
    Accesses rv64 feature where
  lw := by
    intro regs inst rd rs1 offset size dest source small plain
    rw [← address_wide_iff feature regs inst rs1 inst.imm offset source plain wide small]
    exact lw_wide_iff feature regs inst rd rs1 offset size dest wide
  sw := by
    intro regs inst rs1 rs2 offset size source small plain
    rw [← address_wide_iff feature regs inst rs1 inst.imm offset source plain wide small]
    exact sw_wide_iff feature regs inst rs1 rs2 offset size wide
  fld := by
    intro regs inst rd rs1 offset size dest source small plain
    rw [← address_wide_iff feature regs inst rs1 inst.imm offset source plain wide small]
    refine means_load_iff _ _ _ _ 8 _ _ (by decide) rfl rfl ?_
    intro left right agree
    simp only [RV32D.fld, RevRegFile.step, wide, dest, word64_congr left right agree]
    exact step64_skip _ inst size
  fsd := by
    intro regs inst rs1 rs2 offset size source plain
    rw [← widened_iff inst.imm offset plain]
    have place : (regs.x64 inst.rs1 + inst.imm.setWidth 64 = effective rv64 regs rs1 offset) ↔
        inst.imm.setWidth 64 = offset.signExtend 64 := by
      rw [effective, BitVec.setWidth_eq, source]
      exact BitVec.add_right_inj _
    rw [← place]
    have stored := means_store_iff (RV32D.fsd feature regs inst)
      (isaStep rv64 2 regs (.fsd rs1 rs2 offset)) (regs.x64 inst.rs1 + inst.imm.setWidth 64)
      (effective rv64 regs rs1 offset) 8 (regs.dpf inst.rs2) (by decide)
      (regs.dpf (rs2.setWidth 8)) (by simp [RV32D.fsd, wide]) rfl ?_
    · rwa [BitVec.setWidth_eq] at stored
    · intro buffer loaded
      simp only [RV32D.fsd, RevRegFile.step, wide]
      exact step64_skip regs inst size

theorem accesses_narrow (feature : RevFeature) (narrow : isRV32 feature = true) :
    Accesses rv32 feature where
  lw := by
    intro regs inst rd rs1 offset size dest source small plain
    rw [← address_narrow_iff feature regs inst rs1 inst.imm offset source plain narrow small]
    exact lw_narrow_iff feature regs inst rd rs1 offset size dest narrow
  sw := by
    intro regs inst rs1 rs2 offset size source small plain
    rw [← address_narrow_iff feature regs inst rs1 inst.imm offset source plain narrow small]
    exact sw_narrow_iff feature regs inst rs1 rs2 offset size narrow
  fld := by
    intro regs inst rd rs1 offset size dest source small plain
    rw [← address_narrow_iff feature regs inst rs1 inst.imm offset source plain narrow small]
    refine means_load_iff _ _ _ _ 8 _ _ (by decide) rfl rfl ?_
    intro left right agree
    simp only [RV32D.fld, RevRegFile.step, narrow, dest, word64_congr left right agree]
    exact step32_skip _ inst size
  fsd := by
    intro regs inst rs1 rs2 offset size source plain
    have place : ((regs.x32 inst.rs1 + inst.imm).setWidth 64 = effective rv32 regs rs1 offset) ↔
        inst.imm = offset.setWidth 32 := by
      rw [effective, Bits.setWidth_inj _ _ (by decide), source,
        BitVec.signExtend_eq_setWidth_of_msb_false plain]
      exact BitVec.add_right_inj _
    rw [← place]
    have stored := means_store_iff (RV32D.fsd feature regs inst)
      (isaStep rv32 2 regs (.fsd rs1 rs2 offset)) ((regs.x32 inst.rs1 + inst.imm).setWidth 64)
      (effective rv32 regs rs1 offset) 8 (regs.dpf inst.rs2) (by decide)
      (regs.dpf (rs2.setWidth 8)) (by simp [RV32D.fsd, narrow]) rfl ?_
    · rwa [BitVec.setWidth_eq] at stored
    · intro buffer loaded
      simp only [RV32D.fsd, RevRegFile.step, narrow]
      exact step32_skip regs inst size

section OneWidth
variable (feature : RevFeature) (regs : RevRegFile) (inst : RevInst) (offset : BitVec 12)
variable (size : inst.instSize = 2) (small : Small inst.imm) (plain : offset.msb = false)
include size small plain

theorem ld_means_iff (rd rs1 : BitVec 5) (dest : inst.rd = rd.setWidth 8)
    (source : inst.rs1 = rs1.setWidth 8) :
    Means (RV64I.ld regs inst) (isaStep rv64 2 regs (.int (.i .ld rd rs1 offset))) ↔
      inst.imm = offset.setWidth 32 := by
  have place : (regs.x64 inst.rs1 + (tdU32 inst.imm 12).signExtend 64 =
      effective rv64 regs rs1 offset) ↔ inst.imm = offset.setWidth 32 := by
    rw [tdU32_small inst.imm small, effective, BitVec.setWidth_eq, source,
      BitVec.signExtend_eq_setWidth_of_msb_false small.2, ← widened_iff inst.imm offset plain]
    exact BitVec.add_right_inj _
  rw [← place]
  exact ld_iff regs inst rd rs1 offset size dest

theorem sd_means_iff (rs1 rs2 : BitVec 5) (source : inst.rs1 = rs1.setWidth 8) :
    Means (RV64I.sd regs inst) (isaStep rv64 2 regs (.int (.s .sd rs1 rs2 offset))) ↔
      inst.imm = offset.setWidth 32 ∧ regs.x64 inst.rs2 = reg rv64 regs rs2 := by
  have place : (regs.x64 inst.rs1 + tdU64 (inst.imm.setWidth 64) 12 =
      effective rv64 regs rs1 offset) ↔ inst.imm = offset.setWidth 32 := by
    have clear : ¬ (inst.imm.setWidth 64).getLsbD (12 - 1) = true := by
      rw [BitVec.getLsbD_setWidth, small.1]
      decide
    rw [tdU64, twosComplement, if_neg clear, effective, BitVec.setWidth_eq, source,
      ← widened_iff inst.imm offset plain]
    exact BitVec.add_right_inj _
  rw [← place]
  exact sd_iff regs inst rs1 rs2 offset size

variable (narrow : isRV32 feature = true) (single : isModeEnabled feature .RV_D = false)
include narrow single

theorem flw_means_iff (rd rs1 : BitVec 5) (dest : inst.rd = rd.setWidth 8)
    (source : inst.rs1 = rs1.setWidth 8) :
    Means (RV32F.flw feature regs inst) (isaStep rv32 2 regs (.flw rd rs1 offset)) ↔
      inst.imm = offset.setWidth 32 := by
  have plainRegs : isRV32D feature = false := by simp [isRV32D, single]
  rw [← address_narrow_iff feature regs inst rs1 inst.imm offset source plain narrow small]
  simp only [RV32F.flw, plainRegs, Bool.false_eq_true, if_false]
  refine means_load_iff _ _ _ _ 4 _ _ (by decide) rfl rfl ?_
  intro left right agree
  simp only [RevRegFile.step, narrow, dest, word32_congr left right agree]
  exact step32_skip _ inst size

theorem fsw_means_iff (convert : BitVec 64 → BitVec 32) (rs1 rs2 : BitVec 5)
    (source : inst.rs1 = rs1.setWidth 8) :
    Means (RV32F.fsw convert feature regs inst) (isaStep rv32 2 regs (.fsw rs1 rs2 offset)) ↔
      inst.imm = offset.setWidth 32 ∧ regs.spf inst.rs2 = regs.spf (rs2.setWidth 8) := by
  have plainRegs : isRV32D feature = false := by simp [isRV32D, single]
  rw [← address_narrow_iff feature regs inst rs1 inst.imm offset source plain narrow small,
    ← Bits.setWidth_inj (v := 32) (w := 64) _ _ (by decide)]
  simp only [RV32F.fsw, plainRegs, Bool.false_eq_true, if_false]
  refine means_store_iff _ _ _ _ 4 _ (by decide) _ rfl rfl ?_
  intro buffer loaded
  simp only [RevRegFile.step, narrow]
  exact step32_skip regs inst size

end OneWidth

end RevCPU.LoadStore
