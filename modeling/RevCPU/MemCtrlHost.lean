import RevCPU.LoadCtrl
import RevCPU.MemCtrlLines
/-!
What a response does to the host: the bytes of its target and its hazard cell. A read writes behind
its target what it was answered, at most eight bytes are extended or modified there, and the last
response to a read or a write clears the hazard that the operation carries.
-/
namespace RevCPU.MemCtrl
open Mem MemRefine RegFile Atomic LoadCtrl Arcs

section Effect
variable {config : Config} {ctrl after : Ctrl} {op : RevMemOp}

/-- The hazard cells after the one of an operation is cleared. -/
def hazardsCleared (ctrl : Ctrl) (op : RevMemOp) : Nat → Bool :=
  match op.hazard with
  | none => ctrl.hazards
  | some hazard => Function.update ctrl.hazards hazard false

/-- The bytes a completed read is extended and modified to. -/
def finishedHost (config : Config) (ctrl : Ctrl) (op : RevMemOp) : Nat → Byte :=
  match op.target with
  | none => ctrl.host
  | some target =>
    let extended := extendTarget ctrl.host target op.flags
    if ctrl.amoTable.any (Ctrl.ownEntry op) then modifyTarget config extended target op else extended

theorem copyTarget_effect {start count : Nat} {data : Buffer}
    (copied : ctrl.copyTarget op start count data = .ok after) :
    after = { ctrl with host :=
      match op.target with
      | none => ctrl.host
      | some target => flatStore ctrl.host (target + start) count data } := by
  unfold Ctrl.copyTarget at copied
  cases aimed : op.target with
  | none =>
    rw [aimed] at copied
    dsimp only at copied
    split at copied
    · exact (Except.ok.inj copied).symm
    · cases copied
  | some target =>
    rw [aimed] at copied
    exact (Except.ok.inj copied).symm

theorem clearHazard_effect {strict : Bool} (cleared : ctrl.clearHazard op strict = .ok after) :
    after.host = ctrl.host ∧ after.hazards = hazardsCleared ctrl op := by
  unfold Ctrl.clearHazard at cleared
  unfold hazardsCleared
  cases awaited : op.hazard with
  | none =>
    rw [awaited] at cleared
    dsimp only at cleared
    split at cleared
    · cases cleared
    · cases cleared
      exact ⟨rfl, rfl⟩
  | some hazard =>
    rw [awaited] at cleared
    cases cleared
    exact ⟨rfl, rfl⟩

-- performAMO sets the hazard that is cleared right behind it.
theorem finishRead_effect (finished : ctrl.finishRead config op = .ok after) :
    after.host = finishedHost config ctrl op ∧ after.hazards = hazardsCleared ctrl op := by
  unfold Ctrl.finishRead at finished
  unfold finishedHost
  split at finished
  · cases finished
  · rename_i extended flagged
    obtain ⟨host, rfl, aims⟩ := handleFlagResp_ok flagged
    have unaimed : op.target = none → host = ctrl.host := by
      intro missing
      unfold Ctrl.handleFlagResp at flagged
      rw [missing] at flagged
      dsimp only at flagged
      split at flagged
      · cases flagged
      · exact (congrArg Ctrl.host (Except.ok.inj flagged)).symm
    by_cases own : ctrl.amoTable.any (Ctrl.ownEntry op) = true
    · simp only [own, if_true, Ctrl.handleAMO] at finished ⊢
      split at finished
      · cases finished
      · rename_i modified modifies
        split at modifies
        · cases modifies
        · rename_i performed performs
          cases modifies
          unfold Ctrl.performAMO at performs
          split at performs
          · cases performs
          · cases performs
          · rename_i target hazard aimed awaited
            cases performs
            split at finished
            · cases finished
            · rename_i cleared clears
              obtain ⟨kept, flags⟩ := clearHazard_effect clears
              cases finished
              constructor
              · rw [Ctrl.delete, kept, aimed]
                simp only [Ctrl.enqueue, Ctrl.setHazard, aims target aimed]
              · rw [Ctrl.delete, flags]
                simp only [hazardsCleared, awaited, Ctrl.enqueue, Ctrl.setHazard, Function.update_idem]
    · rw [if_neg own] at finished
      simp only [Bool.eq_false_iff.mpr own] at finished ⊢
      split at finished
      · cases finished
      · rename_i cleared clears
        obtain ⟨kept, flags⟩ := clearHazard_effect clears
        cases finished
        constructor
        · rw [Ctrl.delete, kept]
          cases aimed : op.target with
          | none => exact unaimed aimed
          | some target => exact aims target aimed
        · rw [Ctrl.delete, flags]
          rfl

section Respond
variable {id : Nat} {data : Buffer} {request : Request}

/-- The host after the bytes of a response are copied behind the target; the offset of a split
response passes through a uint8_t. -/
def copiedHost (ctrl : Ctrl) (op : RevMemOp) (request : Request) (data : Buffer) : Nat → Byte :=
  match op.target with
  | none => ctrl.host
  | some target =>
    if 1 < op.splitRqst then
      flatStore ctrl.host (target + (request.addr + 2 ^ 64 - op.addr) % 2 ^ 8) request.size data
    else flatStore ctrl.host target op.size data

variable (found : ctrl.find id = some op)
  (sent : ctrl.wire.find? (fun request => request.id == id) = some request) (same : request.op = op)
include found sent same

theorem respond_read (reads : answerLane op.op = .read)
    (responded : ctrl.respond config id data = .ok after) :
    after.host =
      (if ctrl.isLast op then
        finishedHost config { ctrl with host := copiedHost ctrl op request data } op
      else copiedHost ctrl op request data) ∧
    after.hazards = if ctrl.isLast op then hazardsCleared ctrl op else ctrl.hazards := by
  have handled : ctrl.handleReadResp config ⟨id, request.addr, request.size, data⟩ = .ok after := by
    unfold Ctrl.respond at responded
    simp only [sent, same] at responded
    cases kind : op.op <;> rw [kind] at reads responded <;> first | exact responded | cases reads
  unfold Ctrl.handleReadResp at handled
  cases claims : ctrl.claim id with
  | error fault =>
    rw [claims] at handled
    cases handled
  | ok claimed =>
    obtain ⟨held, opened⟩ := claimed
    obtain ⟨-, known, rest⟩ := claim_ok claims
    dsimp only at known rest
    rw [found] at known
    obtain rfl := Option.some.inj known
    subst rest
    simp only [claims] at handled
    split at handled
    · cases handled
    · rename_i copied copies
      have stored : copied =
          { ctrl with
              requests := ctrl.requests.erase id
              host := copiedHost ctrl op request data } := by
        rw [copyTarget_effect copies, copiedHost]
        cases op.target with
        | none => rfl
        | some target =>
          by_cases several : 1 < op.splitRqst
          · simp only [if_pos several]
          · simp only [if_neg several, Nat.add_zero]
      subst stored
      split at handled
      · cases handled
      · rename_i finished finishes
        cases handled
        change (if ctrl.isLast op = true then Ctrl.finishRead config _ op else .ok _) = _ at finishes
        by_cases last : ctrl.isLast op = true
        · rw [if_pos last] at finishes ⊢
          rw [if_pos last]
          obtain ⟨host, flags⟩ := finishRead_effect finishes
          exact ⟨host, flags⟩
        · rw [if_neg last] at finishes ⊢
          rw [if_neg last]
          cases finishes
          exact ⟨rfl, rfl⟩

theorem respond_other (other : answerLane op.op ≠ .read)
    (responded : ctrl.respond config id data = .ok after) :
    after.host = ctrl.host ∧
    after.hazards =
      if ctrl.isLast op ∧ answerLane op.op = .write then hazardsCleared ctrl op else ctrl.hazards := by
  unfold Ctrl.respond at responded
  simp only [sent, same] at responded
  have claims : ∀ claimed opened, ctrl.claim id = .ok (claimed, opened) →
      claimed = op ∧ opened = { ctrl with requests := ctrl.requests.erase id } := by
    intro claimed opened claims
    obtain ⟨-, known, rest⟩ := claim_ok claims
    dsimp only at known rest
    rw [found] at known
    exact ⟨(Option.some.inj known).symm, rest⟩
  have plain : ∀ lane ev, ev.id = id → answerLane op.op ≠ .write →
      ctrl.handlePlainResp lane ev = .ok after → after.host = ctrl.host ∧ after.hazards =
        if ctrl.isLast op ∧ answerLane op.op = .write then hazardsCleared ctrl op else ctrl.hazards := by
    intro lane ev named unwritten handled
    rw [if_neg fun both => unwritten both.2]
    unfold Ctrl.handlePlainResp at handled
    rw [named] at handled
    split at handled
    · cases handled
    · rename_i claimed opened claimed'
      obtain ⟨rfl, rfl⟩ := claims _ _ claimed'
      cases handled
      constructor
      · simp only [Ctrl.settle, Ctrl.bump]
        split <;> rfl
      · simp only [Ctrl.settle, Ctrl.bump]
        split <;> rfl
  have write : ∀ ev, ev.id = id → answerLane op.op = .write → ctrl.handleWriteResp ev = .ok after →
      after.host = ctrl.host ∧ after.hazards =
        if ctrl.isLast op ∧ answerLane op.op = .write then hazardsCleared ctrl op else ctrl.hazards := by
    intro ev named written handled
    simp only [written, and_true]
    unfold Ctrl.handleWriteResp at handled
    rw [named] at handled
    split at handled
    · cases handled
    · rename_i claimed opened claimed'
      obtain ⟨rfl, rfl⟩ := claims _ _ claimed'
      change (if ctrl.isLast claimed = true then _ else _) = _ at handled
      split at handled
      · rename_i last
        rw [if_pos last]
        split at handled
        · cases handled
        · rename_i cleared clears
          obtain ⟨host, flags⟩ := clearHazard_effect clears
          cases handled
          exact ⟨host, flags⟩
      · rename_i last
        rw [if_neg last]
        cases handled
        exact ⟨rfl, rfl⟩
  cases kind : op.op with
  | READ | READLOCK | LOADLINK =>
    rw [kind] at other
    exact absurd rfl other
  | WRITE | WRITEUNLOCK | STORECOND =>
    simp only [kind] at responded write
    exact write _ rfl rfl responded
  | FLUSH | CUSTOM =>
    simp only [kind] at responded plain
    exact plain _ _ rfl (by decide) responded
  | FENCE =>
    rw [kind] at responded
    cases responded

theorem respond_hazards (responded : ctrl.respond config id data = .ok after) :
    after.hazards =
      if ctrl.isLast op ∧ (answerLane op.op = .read ∨ answerLane op.op = .write) then
        hazardsCleared ctrl op
      else ctrl.hazards := by
  by_cases reads : answerLane op.op = .read
  · rw [(respond_read found sent same reads responded).2]
    simp only [reads, true_or, and_true]
  · rw [(respond_other found sent same reads responded).2]
    simp only [reads, false_or]

end Respond

section Frame
variable {id cell : Nat} {data : Buffer} {request : Request}

/-- The bytes a read may write: those of its target, and eight where fewer are extended. -/
def Reaches (op : RevMemOp) (cell : Nat) : Prop :=
  ∃ target, op.target = some target ∧ target ≤ cell ∧ cell < target + max op.size 8

def Fits (request : Request) : Prop :=
  ∃ start, start + request.size ≤ request.op.size ∧
    (request.addr = (request.op.addr + start) % 2 ^ 64 ∨ start = 0 ∧ request.addr = request.op.addr)

-- Where an operation's address is one of 64 bits, this is the offset; otherwise it is no greater.
theorem offset_le (fits : Fits request) :
    (request.addr + 2 ^ 64 - request.op.addr) % 2 ^ 8 + request.size ≤ request.op.size := by
  obtain ⟨start, within, place⟩ := fits
  have bound : (request.addr + 2 ^ 64 - request.op.addr) % 2 ^ 8 ≤ start := by
    rcases place with place | ⟨rfl, place⟩
    · rw [place]
      have parts := Nat.div_add_mod (request.op.addr + start) (2 ^ 64)
      by_cases around : (request.op.addr + start) / 2 ^ 64 = 0
      · rw [around] at parts
        omega
      · omega
    · rw [place]
      omega
  omega

theorem modifyTarget_apart (config : Config) (host : Nat → Byte) {target : Nat} (op : RevMemOp)
    (outside : ¬ (target ≤ cell ∧ cell < target + 8)) :
    modifyTarget config host target op cell = host cell := by
  unfold modifyTarget
  split
  · exact flatStore_outside host target _ (by omega)
  · exact flatStore_outside host target _ outside

theorem finishedHost_apart (outside : ¬ Reaches op cell) :
    finishedHost config ctrl op cell = ctrl.host cell := by
  unfold finishedHost
  cases aimed : op.target with
  | none => rfl
  | some target =>
    have apart : ¬ (target ≤ cell ∧ cell < target + 8) := by
      rintro ⟨lower, upper⟩
      exact outside ⟨target, aimed, lower, by omega⟩
    dsimp only
    split
    · rw [modifyTarget_apart config _ op apart, extendTarget_apart _ _ _ apart]
    · exact extendTarget_apart _ _ _ apart

theorem copiedHost_apart (fits : Fits request) (same : request.op = op) (outside : ¬ Reaches op cell) :
    copiedHost ctrl op request data cell = ctrl.host cell := by
  have within := offset_le fits
  rw [same] at within
  unfold copiedHost
  cases aimed : op.target with
  | none => rfl
  | some target =>
    have apart : ¬ (target ≤ cell ∧ cell < target + op.size) := by
      rintro ⟨lower, upper⟩
      exact outside ⟨target, aimed, lower, by omega⟩
    dsimp only
    split
    · exact flatStore_outside _ _ _ (by omega)
    · exact flatStore_outside _ _ _ apart

/-- A response leaves alone the bytes that its operation does not reach and the hazards it does not
carry. -/
theorem respond_frame (found : ctrl.find id = some op)
    (sent : ctrl.wire.find? (fun request => request.id == id) = some request) (same : request.op = op)
    (fits : Fits request) (responded : ctrl.respond config id data = .ok after) :
    (∀ cell, ¬ Reaches op cell → after.host cell = ctrl.host cell) ∧
    ∀ hazard, op.hazard ≠ some hazard → after.hazards hazard = ctrl.hazards hazard := by
  have kept : ∀ hazard, op.hazard ≠ some hazard → hazardsCleared ctrl op hazard = ctrl.hazards hazard := by
    intro hazard other
    unfold hazardsCleared
    cases awaited : op.hazard with
    | none => rfl
    | some mine =>
      rw [awaited] at other
      exact Function.update_of_ne (fun equal => other (congrArg some equal.symm)) _ _
  constructor
  · intro cell outside
    by_cases reads : answerLane op.op = .read
    · rw [(respond_read found sent same reads responded).1]
      split
      · rw [finishedHost_apart outside]
        exact copiedHost_apart fits same outside
      · exact copiedHost_apart fits same outside
    · rw [(respond_other found sent same reads responded).1]
  · intro hazard other
    rw [respond_hazards found sent same responded]
    split
    · exact kept hazard other
    · rfl

theorem wireOf_fits {flags : BitVec 32} {curByte base : Nat} {pieces : List (Nat × Nat)}
    (laid : Laid (2 ^ 64) base pieces) (start : base = (op.addr + curByte) % 2 ^ 64)
    (within : curByte + total pieces ≤ op.size) :
    ∀ request ∈ wireOf op flags id curByte pieces, Fits request := by
  induction laid generalizing id curByte with
  | nil base => simp [wireOf]
  | @cons base rest size tail ih =>
    rw [total_cons] at within
    rw [wireOf, List.forall_mem_cons]
    constructor
    · exact ⟨curByte, by dsimp only at within ⊢; omega, .inl start⟩
    · apply ih
      · rw [start, Nat.mod_add_mod, Nat.add_assoc]
      · dsimp only at within
        omega

theorem dispatched_fits (config : Config) (op : RevMemOp) (flags : BitVec 32) :
    ∀ request ∈ wireOf (split config op) flags id 0 (piecesOf config op), Fits request := by
  by_cases cached : hasCache config = true ∧ op.isCacheable = true
  · have positive : 0 < config.lineSize := of_decide_eq_true cached.1
    have within : firstSize config op.addr op.size ≤ op.size := firstSize_le positive
    have sum := cachePieces_total config op.addr op.size
    rw [piecesOf, if_pos cached, cachePieces_eq, wireOf, List.forall_mem_cons]
    rw [cachePieces_eq, total_cons] at sum
    constructor
    · exact ⟨0, by rw [Nat.zero_add]; exact within, .inr ⟨rfl, rfl⟩⟩
    · refine wireOf_fits (tailPieces_laid _ _) ?_ ?_
      · rw [Nat.zero_add]
        rfl
      · dsimp only [split] at sum ⊢
        omega
  · rw [piecesOf, if_neg cached]
    rintro request (_ | ⟨_, ⟨⟩⟩)
    exact ⟨0, Nat.le_of_eq (Nat.zero_add _), .inr ⟨rfl, rfl⟩⟩

theorem reached_fits {good : Run → Event → Prop} {run : Run} (reached : Reached config good run) :
    ∀ request ∈ run.ctrl.wire, Fits request := by
  induction reached with
  | start host hazards => simp [Ctrl.new]
  | step before event legal meets stepped ih =>
    have move := step_move (reached_sound before) legal stepped
    cases move with
    | refuse | accept | start | idle | fence => exact ih
    | answer id data op created ctrl held answered =>
      dsimp only
      rw [answered.wire]
      exact ih
    | dispatch tick front op back lane next running taken isLane sends =>
      intro request member
      rcases List.mem_append.mp member with old | new
      · exact ih request old
      · exact dispatched_fits config op _ request new

end Frame

section Calls
variable (call : Call)

theorem apply_hazards : (call.apply ctrl).hazards =
    match call.op.hazard with
    | none => ctrl.hazards
    | some hazard =>
      if call.accepts then Function.update ctrl.hazards hazard true else ctrl.hazards := by
  cases accepts : call.accepts with
  | true =>
    cases call with
    | sendFENCE hart => rfl
    | sendAMORequest hart addr pAddr size buffer target hazard flags =>
      have ⟨positive, atomic⟩ : size ≠ 0 ∧ isAtomic flags = true := by
        simpa [Call.accepts, Call.op, Call.isAMO, Ctrl.newOp] using accepts
      simp [Call.apply, Ctrl.sendAMORequest, positive, atomic, Ctrl.enqueue, Ctrl.setHazard, Call.op]
    | _ =>
      simp only [Call.accepts, Call.op, Call.isAMO, Ctrl.newOp, Bool.not_false, Bool.true_or,
        Bool.and_true, Bool.or_eq_true, bne_iff_ne, beq_iff_eq, reduceCtorEq, false_or] at accepts
      simp [Call.apply, Ctrl.sendFLUSHRequest, Ctrl.sendREADRequest, Ctrl.sendWRITERequest,
        Ctrl.sendREADLOCKRequest, Ctrl.sendWRITELOCKRequest, Ctrl.sendLOADLINKRequest,
        Ctrl.sendSTORECONDRequest, Ctrl.sendCUSTOMREADRequest, Ctrl.sendCUSTOMWRITERequest, accepts,
        Ctrl.enqueue, Ctrl.setHazard, Call.op, Ctrl.newOp]
  | false =>
    rw [Call.apply_refused ctrl call accepts]
    cases call.op.hazard with
    | none => rfl
    | some hazard => rfl

theorem apply_keeps {hazard : Nat} (set : ctrl.hazards hazard = true) :
    (call.apply ctrl).hazards hazard = true := by
  rw [apply_hazards]
  cases call.op.hazard with
  | none => exact set
  | some cell =>
    dsimp only
    split
    · by_cases same : hazard = cell
      · rw [same, Function.update_self]
      · rw [Function.update_of_ne same, set]
    · exact set

end Calls

end Effect
end RevCPU.MemCtrl
