import RevCPU.PanZeroCall
/-!
Runs with puts to the address 0. Packets arrive, the clock calls the functions of the PAN in any order, and
the program changes its memory, the buffers among it, as it likes. What has arrived is what was placed and
what waits.
-/
namespace RevCPU.Pan
open Mem MemRefine RegFile OldRead

section Arrival
variable {cpu after : PanCPU} {event : PanNicEvent} {rand : BitVec 32} {fresh : Nat → Buffer}

/-- The packets that may carry a put to the address 0. -/
def PanOpcode.zeroPuts : PanOpcode → Bool
  | .SyncPut | .AsyncPut => true
  | _ => false

/-- The put that a packet adds to the queue. -/
def zeroPut (cpu : PanCPU) (event : PanNicEvent) : List (BitVec 32 × Buffer) :=
  if event.opcode.zeroPuts && event.addr == 0 && (cpu.nic.isHost || cpu.nic.checkToken event.token) then
    (event.getData.map fun words => (event.size, bufferOf words)).toList
  else []

theorem panHandlePut_queue {zeroAddr : Bool} (handled : cpu.panHandlePut event zeroAddr = .ok after) :
    after.zeroRqst = cpu.zeroRqst ++
      if zeroAddr && event.addr == 0 && (cpu.nic.isHost || cpu.nic.checkToken event.token) then
        (event.getData.map fun words => (event.size, bufferOf words)).toList
      else [] := by
  rw [PanCPU.panHandlePut] at handled
  have refused : (!cpu.nic.isHost && !cpu.nic.checkToken event.token) =
      !(cpu.nic.isHost || cpu.nic.checkToken event.token) := by
    cases cpu.nic.isHost <;> rfl
  rw [refused] at handled
  cases accepted : cpu.nic.isHost || cpu.nic.checkToken event.token with
  | false =>
    rw [accepted] at handled
    cases handled
    rw [Bool.and_false]
    exact (List.append_nil _).symm
  | true =>
    rw [accepted] at handled
    cases data : event.getData with
    | none =>
      rw [data] at handled
      cases handled
    | some words =>
      rw [data] at handled
      cases zero : zeroAddr && event.addr == 0 with
      | true =>
        rw [zero] at handled
        cases handled
        rfl
      | false =>
        rw [zero] at handled
        rw [Bool.not_true, if_neg Bool.false_ne_true] at handled
        dsimp only at handled
        rw [if_neg Bool.false_ne_true] at handled
        cases stored : cpu.store event event.size (bufferOf words) with
        | error fault =>
          rw [stored] at handled
          cases handled
        | ok middle =>
          rw [stored] at handled
          cases handled
          rw [PanCPU.store] at stored
          cases wrote : cpu.mem.writeMem 0 event.addr.toNat event.size.toNat (bufferOf words) with
          | error fault =>
            rw [wrote] at stored
            cases stored
          | ok mem =>
            rw [wrote] at stored
            cases stored
            exact (List.append_nil _).symm

theorem withHart_queue {handle : Core → Except PanFault PanCPU}
    (each : ∀ core, handle core = .ok after → after.zeroRqst = cpu.zeroRqst)
    (handled : cpu.withHart event handle = .ok after) : after.zeroRqst = cpu.zeroRqst := by
  rw [PanCPU.withHart] at handled
  split_ifs at handled
  · cases handled
    rfl
  · cases handled
    rfl
  · cases found : cpu.procs[event.size.toNat]? with
    | none =>
      rw [found] at handled
      cases handled
    | some core =>
      rw [found] at handled
      exact each core handled

theorem panHandleReadReg_queue (handled : cpu.panHandleReadReg event = .ok after) :
    after.zeroRqst = cpu.zeroRqst := by
  refine withHart_queue (fun core handled => ?_) handled
  cases read : core.debugReadReg (event.addr.setWidth 32) with
  | error fault =>
    rw [read] at handled
    cases handled
  | ok found =>
    rw [read] at handled
    cases found <;> cases handled <;> rfl

theorem panHandleWriteReg_queue (handled : cpu.panHandleWriteReg event = .ok after) :
    after.zeroRqst = cpu.zeroRqst := by
  refine withHart_queue (fun core handled => ?_) handled
  cases word : PanCPU.oneWord event with
  | error fault =>
    rw [word] at handled
    cases handled
  | ok value =>
    rw [word] at handled
    dsimp only at handled
    cases wrote : core.debugWriteReg (event.addr.setWidth 32) value with
    | error fault =>
      rw [wrote] at handled
      cases handled
    | ok written =>
      rw [wrote] at handled
      cases written <;> cases handled <;> rfl

theorem panHandleSingleStep_queue (handled : cpu.panHandleSingleStep event = .ok after) :
    after.zeroRqst = cpu.zeroRqst := by
  refine withHart_queue (fun core handled => ?_) handled
  cases stepped : core.singleStepHart with
  | none =>
    rw [stepped] at handled
    cases handled
    rfl
  | some stepping =>
    rw [stepped] at handled
    cases handled
    rfl

theorem panHandleHalt_queue (handled : cpu.panHandleHalt event = .ok after) :
    after.zeroRqst = cpu.zeroRqst := by
  refine withHart_queue (fun core handled => ?_) handled
  cases handled
  rfl

theorem panHandleExec_queue : (cpu.panHandleExec event).zeroRqst = cpu.zeroRqst := by
  rw [PanCPU.panHandleExec]
  split_ifs
  · rfl
  · cases cpu.pExec.addEntry event.addr <;> rfl

theorem panHandleBOTW_queue : (cpu.panHandleBOTW event).zeroRqst = cpu.zeroRqst := by
  rw [PanCPU.panHandleBOTW]
  split_ifs
  · rfl
  · cases cpu.pExec.addEntry (event.offset.setWidth 64 + cpu.symbolStart) <;> rfl

theorem panHandleCancel_queue : (cpu.panHandleCancel event).zeroRqst = cpu.zeroRqst := by
  rw [PanCPU.panHandleCancel]
  split_ifs
  · rfl
  · cases cpu.pExec.removeEntry event.size.toNat <;> rfl

theorem panHandleStatus_queue : (cpu.panHandleStatus event).zeroRqst = cpu.zeroRqst := by
  rw [PanCPU.panHandleStatus]
  dsimp only
  split_ifs <;> rfl

theorem panHandleReserve_queue : (cpu.panHandleReserve event).zeroRqst = cpu.zeroRqst := by
  rw [panHandleReserve_eq]
  split_ifs <;> rfl

theorem panHandleRevoke_queue : (cpu.panHandleRevoke event).zeroRqst = cpu.zeroRqst := by
  rw [PanCPU.panHandleRevoke]
  split_ifs <;> rfl

theorem panHandleResume_queue : (cpu.panHandleResume event).zeroRqst = cpu.zeroRqst := by
  rw [PanCPU.panHandleResume]
  dsimp only
  split_ifs <;> rfl

theorem panHandleSetFuture_queue : (cpu.panHandleSetFuture event).zeroRqst = cpu.zeroRqst := by
  rw [PanCPU.panHandleSetFuture]
  split_ifs <;> rfl

theorem panHandleRevokeFuture_queue : (cpu.panHandleRevokeFuture event).zeroRqst = cpu.zeroRqst := by
  rw [PanCPU.panHandleRevokeFuture]
  dsimp only
  split_ifs <;> rfl

theorem panHandleStatusFuture_queue : (cpu.panHandleStatusFuture event).zeroRqst = cpu.zeroRqst := by
  rw [PanCPU.panHandleStatusFuture]
  split_ifs <;> rfl

theorem handle_queue (handled : cpu.handleNetPANMessage event rand fresh = .ok after) :
    after.zeroRqst = cpu.zeroRqst ++ zeroPut cpu event := by
  rw [PanCPU.handleNetPANMessage] at handled
  rw [zeroPut]
  cases named : event.opcode <;> rw [named] at handled
  case SyncPut => exact panHandlePut_queue handled
  case AsyncPut => exact panHandlePut_queue handled
  all_goals refine Eq.trans ?_ (List.append_nil cpu.zeroRqst).symm
  case SyncGet => exact (panHandleSyncGet_calm handled).zeroRqst
  case AsyncGet => exact (panHandleGet_calm handled).zeroRqst
  case SyncStreamGet => exact (panHandleGet_calm handled).zeroRqst
  case AsyncStreamGet => exact (panHandleGet_calm handled).zeroRqst
  case SyncStreamPut => exact (panHandlePut_queue handled).trans (List.append_nil _)
  case AsyncStreamPut => exact (panHandlePut_queue handled).trans (List.append_nil _)
  case Halt => exact panHandleHalt_queue handled
  case ReadReg => exact panHandleReadReg_queue handled
  case WriteReg => exact panHandleWriteReg_queue handled
  case SingleStep => exact panHandleSingleStep_queue handled
  case Success => exact (panHandleSuccess_calm handled).zeroRqst
  case Failed => exact (panHandleFailed_calm handled).zeroRqst
  all_goals cases handled
  case Exec => exact panHandleExec_queue
  case Status => exact panHandleStatus_queue
  case Cancel => exact panHandleCancel_queue
  case Reserve => exact panHandleReserve_queue
  case Revoke => exact panHandleRevoke_queue
  case Resume => exact panHandleResume_queue
  case SetFuture => exact panHandleSetFuture_queue
  case RevokeFuture => exact panHandleRevokeFuture_queue
  case StatusFuture => exact panHandleStatusFuture_queue
  case BOTW => exact panHandleBOTW_queue

end Arrival
section Clock
variable {cpu after : PanCPU}

theorem sendPANMessage_queue (sent : cpu.sendPANMessage = .ok after) : after.zeroRqst = cpu.zeroRqst := by
  rw [PanCPU.sendPANMessage] at sent
  cases queued : cpu.sendMB with
  | nil =>
    rw [queued] at sent
    cases sent
    rfl
  | cons packet rest =>
    rw [queued] at sent
    dsimp only [PanCPU.finishRevoke] at sent
    cases waits : cpu.readyForRevoke with
    | false =>
      rw [waits] at sent
      cases sent
      rfl
    | true =>
      rw [waits, if_pos rfl] at sent
      cases wrote : cpu.mem.writeMem 0 completionAddr 8 (bytesOf (1 : BitVec 64)) with
      | error fault =>
        rw [wrote] at sent
        cases sent
      | ok mem =>
        rw [wrote] at sent
        cases sent
        rfl

theorem answerRead_queue {rqst : ReadRqst} {target : Buffer}
    (answered : cpu.answerRead rqst target = .ok after) : after.zeroRqst = cpu.zeroRqst := by
  rw [PanCPU.answerRead] at answered
  cases read : cpu.mem.readMemOld rqst.addr.toNat rqst.size.toNat target with
  | error fault =>
    rw [read] at answered
    cases answered
  | ok loaded =>
    rw [read] at answered
    cases answered
    rfl

theorem answerReads_queue {fresh : Nat → Buffer} {rqsts : List ReadRqst}
    (answered : PanCPU.answerReads fresh cpu rqsts = .ok after) : after.zeroRqst = cpu.zeroRqst := by
  induction rqsts generalizing cpu with
  | nil =>
    cases answered
    rfl
  | cons rqst rest ih =>
    rw [PanCPU.answerReads] at answered
    split_ifs at answered with now
    · cases first : cpu.answerRead rqst (fresh rest.length) with
      | error fault =>
        rw [first] at answered
        cases answered
      | ok middle =>
        rw [first] at answered
        exact (ih answered).trans (answerRead_queue first)
    · exact ih answered

theorem processPANMemRead_queue {fresh : Nat → Buffer} (read : cpu.processPANMemRead fresh = .ok after) :
    after.zeroRqst = cpu.zeroRqst := by
  rw [PanCPU.processPANMemRead] at read
  cases answered : PanCPU.answerReads fresh cpu (cpu.readQueue.map PanCPU.elapse) with
  | error fault =>
    rw [answered] at read
    cases read
  | ok middle =>
    rw [answered] at read
    cases read
    have queue := answerReads_queue answered
    exact queue

end Clock

section Run

/-- A run: what it reaches, the puts that have arrived, and those that have left the queue at its head in a
call of processPANZeroAddr. The program and the cores change the memory and the cores as they like. -/
inductive ZeroRun : PanCPU → List (BitVec 32 × Buffer) → List (BitVec 32 × Buffer) → Prop where
  | start {cpu : PanCPU} (empty : cpu.zeroRqst = []) : ZeroRun cpu [] []
  | deliver {cpu after : PanCPU} {arrived gone : List (BitVec 32 × Buffer)} {event : PanNicEvent}
      {rand : BitVec 32} {fresh : Nat → Buffer} (run : ZeroRun cpu arrived gone)
      (handled : cpu.handlePANMessage event rand fresh = .ok after) :
      ZeroRun after (arrived ++ zeroPut cpu event) gone
  | place {cpu after : PanCPU} {arrived gone : List (BitVec 32 × Buffer)} {host last : Buffer}
      (run : ZeroRun cpu arrived gone) (called : cpu.processPANZeroAddr host = .ok (after, last)) :
      ZeroRun after arrived (gone ++ cpu.zeroRqst.take (cpu.zeroRqst.length - after.zeroRqst.length))
  | send {cpu after : PanCPU} {arrived gone : List (BitVec 32 × Buffer)} (run : ZeroRun cpu arrived gone)
      (sent : cpu.sendPANMessage = .ok after) : ZeroRun after arrived gone
  | read {cpu after : PanCPU} {arrived gone : List (BitVec 32 × Buffer)} {fresh : Nat → Buffer}
      (run : ZeroRun cpu arrived gone) (answered : cpu.processPANMemRead fresh = .ok after) :
      ZeroRun after arrived gone
  | scan {cpu after : PanCPU} {arrived gone : List (BitVec 32 × Buffer)} {perCycle prevAddr next : Nat}
      {fresh : Nat → Nat → Buffer} (run : ZeroRun cpu arrived gone)
      (scanned : cpu.panProcessRDMAMailbox perCycle fresh prevAddr = .ok (after, next)) :
      ZeroRun after arrived gone
  | program {cpu : PanCPU} {arrived gone : List (BitVec 32 × Buffer)} {mem : RevMem} {procs : List Core}
      {exec : PanExec} (run : ZeroRun cpu arrived gone) :
      ZeroRun { cpu with mem := mem, procs := procs, pExec := exec } arrived gone

variable {cpu after : PanCPU} {arrived gone : List (BitVec 32 × Buffer)}

theorem process_leaves {host last : Buffer} (called : cpu.processPANZeroAddr host = .ok (after, last)) :
    cpu.zeroRqst.take (cpu.zeroRqst.length - after.zeroRqst.length) ++ after.zeroRqst = cpu.zeroRqst := by
  have ⟨count, bound, dropped⟩ := process_drops called
  rw [dropped, List.length_drop, Nat.sub_sub_self bound]
  exact List.take_append_drop count cpu.zeroRqst

/-- Nothing is lost and nothing overtakes, whatever the puts and the buffers are. -/
theorem ZeroRun.order (run : ZeroRun cpu arrived gone) : arrived = gone ++ cpu.zeroRqst := by
  induction run with
  | start empty =>
    rw [empty]
    rfl
  | deliver _ handled ih => rw [ih, handle_queue (handlePANMessage_net handled), List.append_assoc]
  | place _ called ih => rw [ih, List.append_assoc, process_leaves called]
  | send _ sent ih => rw [ih, sendPANMessage_queue sent]
  | read _ answered ih => rw [ih, processPANMemRead_queue answered]
  | scan _ scanned ih => rw [ih, (panProcessRDMAMailbox_aside scanned).zeroRqst]
  | program _ ih => exact ih

/-- In every state of a run the puts are in order, and a call there is right exactly where it fits. -/
theorem zero_puts_iff (run : ZeroRun cpu arrived gone) (board : XferMem cpu.mem) (host : Buffer) :
    (arrived = gone ++ cpu.zeroRqst ∧ Places cpu host) ↔ Fitting cpu host := by
  constructor
  · rintro ⟨_, places⟩
    exact (places_iff board).mp places
  · intro fitting
    exact ⟨run.order, (places_iff board).mpr fitting⟩

end Run

section Examples

/-- The memory with the transfer buffers, which nothing has used. -/
def freshXfer : RevMem := freshMailbox.addMemSegAt xferBufAddr ((1 + xferBuf) * xferBuf)

theorem freshXfer_mem : XferMem freshXfer where
  sized := by
    refine ⟨by decide, by decide, ?_⟩
    intro vAddr valid
    rw [freshXfer, valid_addMemSegAt, Bool.or_eq_true] at valid
    rcases valid with inside | valid
    · have top : (MemSegment.make xferBufAddr ((1 + xferBuf) * xferBuf)).topAddr =
          xferBufAddr + (1 + xferBuf) * xferBuf := by decide
      change vAddr < 0x40000000
      rw [MemSegment.contains, top] at inside
      simp only [Bool.and_eq_true, decide_eq_true_eq] at inside
      unfold xferBufAddr xferBuf at inside
      omega
    · exact freshMailbox_board.sized.bounded vAddr valid
  coherent := Untouched.coherent ⟨rfl, rfl, rfl, rfl⟩
  cached := by decide
  mapped := by
    intro offset inside
    have top : (MemSegment.make xferBufAddr ((1 + xferBuf) * xferBuf)).topAddr =
        xferBufAddr + (1 + xferBuf) * xferBuf := by decide
    have base : (MemSegment.make xferBufAddr ((1 + xferBuf) * xferBuf)).baseAddr = xferBufAddr := rfl
    have held :
        (MemSegment.make xferBufAddr ((1 + xferBuf) * xferBuf)).contains (xferBufAddr + offset) = true := by
      rw [MemSegment.contains, top, base]
      simp only [Bool.and_eq_true, decide_eq_true_eq]
      omega
    rw [freshXfer, valid_addMemSegAt, held]
    rfl

/-- A put of 4 bytes to the address 0. -/
def fourBytes : PanNicEvent := PanNicEvent.new.buildSyncPut 0 1 0 4 fun _ => 9

def hostWithFour : PanCPU :=
  ((hostWith freshXfer).panHandleZeroAddrPut 4 (bufferOf [9])).replySized fourBytes 4

theorem four_arrives : ZeroRun hostWithFour [(4, bufferOf [9])] [] :=
  .deliver (.start rfl) (by rfl : (hostWith freshXfer).handlePANMessage fourBytes 0 (fun _ _ => 0) =
    .ok hostWithFour)

theorem freshXfer_byte (vAddr : Nat) : byteAt hostWithFour.mem vAddr = 0 :=
  Untouched.byteAt ⟨rfl, rfl, rfl, rfl⟩ vAddr

-- The 7 bytes of the host behind the variable were 1, and are 0 after the read of the first slot.
theorem host_overwritten : ZeroRun hostWithFour [(4, bufferOf [9])] [] ∧ XferMem hostWithFour.mem ∧
    ¬ Places hostWithFour fun _ => 1 := by
  refine ⟨four_arrives, freshXfer_mem, fun places => ?_⟩
  have fitting := (places_iff freshXfer_mem).mp places
  have first : 0 ∈ scanned hostWithFour := List.mem_cons_self
  have same := fitting.host 0 first 1 (by decide) (by decide)
  rw [freshXfer_byte] at same
  exact absurd same (by decide)

theorem zero_puts_four : [((4 : BitVec 32), bufferOf [9])] = [] ++ hostWithFour.zeroRqst ∧
    Places hostWithFour fun _ => 0 := by
  refine (zero_puts_iff four_arrives freshXfer_mem fun _ => 0).mpr ⟨?_, ?_, ?_⟩
  · intro put member
    have queued : put ∈ [((4 : BitVec 32), bufferOf [9])] := List.mem_of_mem_take member
    rw [List.mem_singleton.mp queued]
    decide
  · exact fun slot _ index _ _ => freshXfer_byte _
  · exact fun _ _ => ⟨0, by decide, beq_iff_eq.mpr (freshXfer_byte _)⟩

end Examples
end RevCPU.Pan
