import RevCPU.PanConvert
/-!
What the work of the PAN side leaves alone, whatever the memory is: the handlers of gets and of responses, and
the scan of the mailbox.
-/
namespace RevCPU.Pan
open Mem RegFile

section Handlers
variable {cpu after : PanCPU} {event : PanNicEvent} {rand : BitVec 32} {fresh : Nat → Buffer}

theorem handlePANMessage_net (handled : cpu.handlePANMessage event rand fresh = .ok after) :
    cpu.handleNetPANMessage event rand fresh = .ok after := by
  rw [PanCPU.handlePANMessage] at handled
  split_ifs at handled with host
  · rw [PanCPU.handleHostPANMessage] at handled
    rw [PanCPU.handleNetPANMessage]
    cases named : event.opcode <;> rw [named] at handled <;> first | exact handled | cases handled
  · exact handled

/-- The puts that wait and a revocation that waits are as before. -/
structure Calm (cpu after : PanCPU) : Prop where
  zeroRqst : after.zeroRqst = cpu.zeroRqst
  ready : after.readyForRevoke = cpu.readyForRevoke

theorem pushRead_calm (pushed : cpu.pushRead event rand = .ok after) : Calm cpu after := by
  rw [PanCPU.pushRead] at pushed
  cases procs : cpu.procs.head? with
  | none =>
    rw [procs] at pushed
    cases pushed
  | some core =>
    rw [procs] at pushed
    cases pushed
    exact ⟨rfl, rfl⟩

theorem panHandleGet_calm (handled : cpu.panHandleGet event rand = .ok after) : Calm cpu after := by
  rw [PanCPU.panHandleGet] at handled
  split_ifs at handled
  · cases handled
    exact ⟨rfl, rfl⟩
  · exact pushRead_calm handled

theorem panHandleSyncGet_calm (handled : cpu.panHandleSyncGet event rand = .ok after) : Calm cpu after := by
  rw [PanCPU.panHandleSyncGet] at handled
  split_ifs at handled
  · have calm := pushRead_calm handled
    exact ⟨calm.zeroRqst, calm.ready⟩
  · exact pushRead_calm handled

theorem closeTag_calm {sig : BitVec 64} (closed : cpu.closeTag event sig fresh = .ok after) :
    Calm cpu after := by
  rw [PanCPU.closeTag, PanCPU.panSignalMsgRecv] at closed
  cases signalled : PanCPU.signalFrom cpu.mem event.tag sig fresh rdmaMailbox rdmaMaxEntries with
  | error fault =>
    rw [signalled] at closed
    cases closed
  | ok mem =>
    rw [signalled] at closed
    cases closed
    exact ⟨rfl, rfl⟩

theorem panHandleFailed_calm (handled : cpu.panHandleFailed event fresh = .ok after) : Calm cpu after := by
  rw [PanCPU.panHandleFailed] at handled
  split_ifs at handled
  exact closeTag_calm handled

theorem panHandleSuccess_calm (handled : cpu.panHandleSuccess event fresh = .ok after) : Calm cpu after := by
  rw [PanCPU.panHandleSuccess] at handled
  split_ifs at handled
  cases delivered : PanCPU.deliverGets cpu.mem event.tag fresh [] cpu.trackGets with
  | error fault =>
    rw [delivered] at handled
    cases handled
  | ok result =>
    rw [delivered] at handled
    have calm := closeTag_calm handled
    exact ⟨calm.zeroRqst, calm.ready⟩

theorem handle_calm (waits : ¬ (event.opcode.requests = true ∧ event.opcode.reads = false))
    (handled : cpu.handleNetPANMessage event rand fresh = .ok after) : Calm cpu after := by
  rw [PanCPU.handleNetPANMessage] at handled
  cases named : event.opcode <;> rw [named] at handled waits
  case SyncGet => exact panHandleSyncGet_calm handled
  case AsyncGet => exact panHandleGet_calm handled
  case SyncStreamGet => exact panHandleGet_calm handled
  case AsyncStreamGet => exact panHandleGet_calm handled
  case Success => exact panHandleSuccess_calm handled
  case Failed => exact panHandleFailed_calm handled
  case PanRsvd => cases handled
  all_goals exact absurd ⟨rfl, rfl⟩ waits

end Handlers

section Mailbox
variable {cpu middle after : PanCPU} {addr : BitVec 64} {head : Header} {kind : PanOpcode}
  {fresh : Nat → Buffer} {event built : PanNicEvent} {value : Buffer} {word : BitVec 64}

/-- Only the memory and the gets differ, and packets are added to the mailbox for the network. -/
structure Aside (cpu after : PanCPU) : Prop where
  same : after = { cpu with mem := after.mem, trackGets := after.trackGets, sendMB := after.sendMB }
  posts : ∃ more, after.sendMB = cpu.sendMB ++ more

theorem Aside.refl (cpu : PanCPU) : Aside cpu cpu := ⟨rfl, [], (List.append_nil _).symm⟩

theorem Aside.trans (first : Aside cpu middle) (second : Aside middle after) : Aside cpu after where
  same := by
    rw [second.same, first.same]
  posts := by
    rcases first.posts with ⟨one, pushed⟩
    rcases second.posts with ⟨two, appended⟩
    exact ⟨one ++ two, by rw [appended, pushed, List.append_assoc]⟩

theorem Aside.zeroRqst (aside : Aside cpu after) : after.zeroRqst = cpu.zeroRqst := by
  rw [aside.same]

theorem push_aside (dest : Int) : Aside cpu (cpu.push event dest) := ⟨rfl, [(event, dest)], rfl⟩

theorem Aside.of_mem (same : after = { cpu with mem := after.mem }) : Aside cpu after where
  same := by
    rw [same]
  posts := by
    rw [same]
    exact ⟨[], (List.append_nil _).symm⟩

theorem readBytes_same {len : Nat} {target data : Buffer}
    (read : cpu.readBytes addr len target = .ok (data, after)) : after = { cpu with mem := after.mem } := by
  rw [PanCPU.readBytes] at read
  cases loaded : cpu.mem.readMemOld addr.toNat len target with
  | error fault =>
    rw [loaded] at read
    cases read
  | ok result =>
    rw [loaded] at read
    cases read
    rfl

theorem readBytes_aside {len : Nat} {target data : Buffer}
    (read : cpu.readBytes addr len target = .ok (data, after)) : Aside cpu after :=
  .of_mem (readBytes_same read)

theorem readWord_aside (read : cpu.readWord addr value = .ok (word, after)) : Aside cpu after := by
  rw [PanCPU.readWord] at read
  cases loaded : PanCPU.readU64 cpu.mem addr value with
  | error fault =>
    rw [loaded] at read
    cases read
  | ok result =>
    rw [loaded] at read
    cases read
    exact .of_mem rfl

theorem writeWord_aside (wrote : cpu.writeWord addr word = .ok after) : Aside cpu after := by
  rw [PanCPU.writeWord] at wrote
  cases stored : cpu.mem.writeMem 0 addr.toNat 8 (bytesOf word) with
  | error fault =>
    rw [stored] at wrote
    cases wrote
  | ok mem =>
    rw [stored] at wrote
    cases wrote
    exact .of_mem rfl

theorem convertGet_aside {build : BitVec 64 → BitVec 32 → PanNicEvent}
    (converted : cpu.convertGet addr head fresh build = .ok (built, after)) : Aside cpu after := by
  have ⟨⟨cmdAddr, middle⟩, read, rest⟩ := bind_inv converted
  have ⟨⟨dataAddr, last⟩, readData, done⟩ := bind_inv rest
  cases done
  have both := (readWord_aside read).trans (readWord_aside readData)
  exact both.trans ⟨rfl, [], (List.append_nil _).symm⟩

theorem convertPut_aside {build : BitVec 64 → BitVec 32 → (Nat → BitVec 64) → PanNicEvent}
    (converted : cpu.convertPut addr head fresh build = .ok (built, after)) : Aside cpu after := by
  have ⟨⟨cmdAddr, middle⟩, read, rest⟩ := bind_inv converted
  have ⟨⟨dataAddr, last⟩, readData, done⟩ := bind_inv rest
  have ⟨⟨data, final⟩, copied, returned⟩ := bind_inv done
  cases returned
  exact ((readWord_aside read).trans (readWord_aside readData)).trans (readBytes_aside copied)

theorem convertAddr_aside {build : BitVec 64 → PanNicEvent}
    (converted : cpu.convertAddr addr fresh build = .ok (built, after)) : Aside cpu after := by
  have ⟨⟨cmdAddr, middle⟩, read, done⟩ := bind_inv converted
  cases done
  exact readWord_aside read

theorem convertWriteReg_aside (converted : cpu.convertWriteReg addr head fresh event = .ok (built, after)) :
    Aside cpu after := by
  have ⟨⟨cmdAddr, middle⟩, read, rest⟩ := bind_inv converted
  have ⟨⟨data, last⟩, readData, done⟩ := bind_inv rest
  cases done
  exact (readWord_aside read).trans (readWord_aside readData)

theorem convertRevoke_aside (converted : cpu.convertRevoke head event = .ok (built, after)) :
    Aside cpu after := by
  have ⟨middle, wrote, done⟩ := bind_inv converted
  cases done
  exact writeWord_aside wrote

theorem convertBOTW_aside (converted : cpu.convertBOTW addr head fresh event = .ok (built, after)) :
    Aside cpu after := by
  have ⟨⟨data, middle⟩, read, done⟩ := bind_inv converted
  cases done
  exact readBytes_aside read

theorem convertOpcode_aside (converted : cpu.convertOpcode addr head fresh kind event = .ok (built, after)) :
    Aside cpu after := by
  cases kind
  case SyncGet => exact convertGet_aside converted
  case AsyncGet => exact convertGet_aside converted
  case SyncStreamGet => exact convertGet_aside converted
  case AsyncStreamGet => exact convertGet_aside converted
  case SyncPut => exact convertPut_aside converted
  case AsyncPut => exact convertPut_aside converted
  case SyncStreamPut => exact convertPut_aside converted
  case AsyncStreamPut => exact convertPut_aside converted
  case Exec => exact convertAddr_aside converted
  case ReadReg => exact convertAddr_aside converted
  case SetFuture => exact convertAddr_aside converted
  case WriteReg => exact convertWriteReg_aside converted
  case Revoke => exact convertRevoke_aside converted
  case BOTW => exact convertBOTW_aside converted
  case PanRsvd => cases converted
  all_goals
    cases converted
    exact .refl cpu

theorem panConvert_aside (converted : cpu.panConvertRDMAtoEvent addr event fresh = .ok (built, after)) :
    Aside cpu after := by
  have ⟨_, _, _, _, _, read, _, _, switched, _⟩ := panConvert_inv converted
  exact (readWord_aside read).trans (convertOpcode_aside switched)

theorem scanSlot_aside {slot : Nat} {found : Bool} (turned : cpu.scanSlot slot fresh = .ok (found, after)) :
    Aside cpu after := by
  have ⟨⟨payload, middle⟩, read, rest⟩ := bind_inv turned
  have first := readBytes_aside read
  dsimp only at rest
  split_ifs at rest
  · have ⟨⟨event, converted⟩, convert, mark⟩ := bind_inv rest
    have ⟨marked, wrote, done⟩ := bind_inv mark
    cases done
    exact ((first.trans (panConvert_aside convert)).trans (push_aside _)).trans (writeWord_aside wrote)
  · cases rest
    exact first

theorem scanFrom_aside {perCycle slot sent left next : Nat} {fresh : Nat → Nat → Buffer}
    (scanned : PanCPU.scanFrom perCycle fresh cpu slot sent left = .ok (after, next)) : Aside cpu after := by
  induction left generalizing cpu slot sent with
  | zero =>
    cases scanned
    exact .refl _
  | succ left ih =>
    rw [PanCPU.scanFrom] at scanned
    cases turned : cpu.scanSlot slot (fresh left) with
    | error fault =>
      rw [turned] at scanned
      cases scanned
    | ok result =>
      rcases result with ⟨found, middle⟩
      rw [turned] at scanned
      dsimp only at scanned
      have first := scanSlot_aside turned
      generalize (if found then sent + 1 else sent) = count at scanned
      split_ifs at scanned
      · cases scanned
        exact first
      · exact first.trans (ih scanned)

theorem panProcessRDMAMailbox_aside {perCycle prevAddr next : Nat} {fresh : Nat → Nat → Buffer}
    (scanned : cpu.panProcessRDMAMailbox perCycle fresh prevAddr = .ok (after, next)) : Aside cpu after := by
  rw [PanCPU.panProcessRDMAMailbox] at scanned
  split_ifs at scanned
  · cases scanned
    exact .refl cpu
  · exact scanFrom_aside scanned

end Mailbox
end RevCPU.Pan
