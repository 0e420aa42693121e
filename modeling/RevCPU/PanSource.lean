import RevCPU.PanClock
/-!
Whose packets a CPU sends. Every packet that a handler, the scan of the mailbox or an answered read puts
into the outgoing mailbox has the address of the CPU as its source, and none of this touches the
outstanding tags. A response closes the tag that it answers and nothing else.
-/
namespace RevCPU.Pan
open Mem RegFile

/-- The address, the outstanding tags and the outgoing mailbox are as before. -/
structure Clear (cpu base : PanCPU) : Prop where
  address : base.address = cpu.address
  trackTags : base.trackTags = cpu.trackTags
  sendMB : base.sendMB = cpu.sendMB

/-- What is added to the outgoing mailbox has the address of the CPU. -/
structure Signed (cpu after : PanCPU) : Prop where
  address : after.address = cpu.address
  trackTags : after.trackTags = cpu.trackTags
  posts : ∃ posts, after.sendMB = cpu.sendMB ++ posts ∧ ∀ post ∈ posts, post.1.src = cpu.address

section Basic
variable {cpu base middle after : PanCPU} {event reply : PanNicEvent}

theorem Clear.refl : Clear cpu cpu := ⟨rfl, rfl, rfl⟩

theorem Clear.signed (clear : Clear cpu after) : Signed cpu after where
  address := clear.address
  trackTags := clear.trackTags
  posts := ⟨[], by rw [clear.sendMB, List.append_nil], fun _ member => absurd member (List.not_mem_nil)⟩

theorem Signed.trans (first : Signed cpu middle) (second : Signed middle after) : Signed cpu after where
  address := second.address.trans first.address
  trackTags := second.trackTags.trans first.trackTags
  posts := by
    obtain ⟨one, pushed, signed⟩ := first.posts
    obtain ⟨two, appended, countersigned⟩ := second.posts
    refine ⟨one ++ two, by rw [appended, pushed, List.append_assoc], ?_⟩
    intro post member
    rcases List.mem_append.mp member with early | late
    · exact signed post early
    · exact (countersigned post late).trans first.address

theorem push_signed (clear : Clear cpu base) (src : reply.src = base.address) (dest : Int) :
    Signed cpu (base.push reply dest) where
  address := clear.address
  trackTags := clear.trackTags
  posts := by
    refine ⟨[(reply, dest)], by rw [PanCPU.push, clear.sendMB], ?_⟩
    intro post member
    rw [List.mem_singleton.mp member]
    exact src.trans clear.address

theorem failed_signed (clear : Clear cpu base) : Signed cpu (base.panBuildFailedToken event) := by
  apply push_signed clear
  rw [buildFailed_eq]
  rfl

theorem raw_signed (clear : Clear cpu base) : Signed cpu (base.panBuildRawSuccess event) := by
  apply push_signed clear
  rw [buildSuccess_eq]
  rfl

theorem basic_src (rtn : PanNicEvent) : (cpu.panBuildBasicSuccess event rtn).src = cpu.address := by
  rw [PanCPU.panBuildBasicSuccess, buildSuccess_eq]
  rfl

theorem sized_signed (clear : Clear cpu base) (size : BitVec 32) :
    Signed cpu (base.replySized event size) :=
  push_signed clear (basic_src _) _

end Basic

section Handlers
variable {cpu after : PanCPU} {event : PanNicEvent} {rand : BitVec 32} {fresh : Nat → Buffer}

theorem pushRead_signed (pushed : cpu.pushRead event rand = .ok after) : Signed cpu after := by
  rw [PanCPU.pushRead] at pushed
  cases procs : cpu.procs.head? with
  | none =>
    rw [procs] at pushed
    cases pushed
  | some core =>
    rw [procs] at pushed
    cases pushed
    exact Clear.signed ⟨rfl, rfl, rfl⟩

theorem panHandleGet_signed (handled : cpu.panHandleGet event rand = .ok after) : Signed cpu after := by
  rw [PanCPU.panHandleGet] at handled
  split_ifs at handled
  · cases handled
    exact failed_signed .refl
  · exact pushRead_signed handled

theorem panHandleSyncGet_signed (handled : cpu.panHandleSyncGet event rand = .ok after) :
    Signed cpu after := by
  rw [PanCPU.panHandleSyncGet] at handled
  split_ifs at handled
  · exact (failed_signed .refl).trans (pushRead_signed handled)
  · exact pushRead_signed handled

theorem panHandlePut_signed {zeroAddr : Bool} (handled : cpu.panHandlePut event zeroAddr = .ok after) :
    Signed cpu after := by
  rw [PanCPU.panHandlePut] at handled
  split at handled
  · cases handled
    exact failed_signed .refl
  · split at handled
    · cases handled
    · split at handled
      · cases handled
        apply sized_signed
        constructor <;> rfl
      · rw [PanCPU.store] at handled
        split at handled
        · cases handled
        · rename_i stored same
          split at same
          · cases same
          · cases same
            cases handled
            apply sized_signed
            constructor <;> rfl

theorem panHandleExec_signed : Signed cpu (cpu.panHandleExec event) := by
  rw [PanCPU.panHandleExec]
  split
  · exact failed_signed .refl
  · split
    · exact failed_signed .refl
    · apply sized_signed
      constructor <;> rfl

theorem panHandleBOTW_signed : Signed cpu (cpu.panHandleBOTW event) := by
  rw [PanCPU.panHandleBOTW]
  split
  · exact failed_signed .refl
  · split
    · exact failed_signed .refl
    · apply sized_signed
      constructor <;> rfl

theorem panHandleStatus_signed : Signed cpu (cpu.panHandleStatus event) := by
  rw [PanCPU.panHandleStatus]
  split
  · exact failed_signed .refl
  · dsimp only
    split
    · exact failed_signed .refl
    · exact sized_signed .refl _

theorem panHandleCancel_signed : Signed cpu (cpu.panHandleCancel event) := by
  rw [PanCPU.panHandleCancel]
  split
  · exact failed_signed .refl
  · split
    · exact failed_signed .refl
    · apply sized_signed
      constructor <;> rfl

theorem panHandleReserve_signed : Signed cpu (cpu.panHandleReserve event) := by
  rw [panHandleReserve_eq]
  split
  · exact failed_signed .refl
  · apply raw_signed
    constructor <;> rfl

theorem panHandleRevoke_signed : Signed cpu (cpu.panHandleRevoke event) := by
  rw [PanCPU.panHandleRevoke]
  split
  · exact failed_signed .refl
  · apply raw_signed
    constructor <;> rfl

theorem panHandleResume_signed : Signed cpu (cpu.panHandleResume event) := by
  rw [PanCPU.panHandleResume]
  split
  · exact failed_signed .refl
  · dsimp only
    split
    · apply failed_signed
      constructor <;> rfl
    · apply raw_signed
      constructor <;> rfl

theorem panHandleSetFuture_signed : Signed cpu (cpu.panHandleSetFuture event) := by
  rw [PanCPU.panHandleSetFuture]
  split
  · exact failed_signed .refl
  · apply raw_signed
    constructor <;> rfl

theorem panHandleRevokeFuture_signed : Signed cpu (cpu.panHandleRevokeFuture event) := by
  rw [PanCPU.panHandleRevokeFuture]
  split
  · exact failed_signed .refl
  · dsimp only
    split
    · apply raw_signed
      constructor <;> rfl
    · apply failed_signed
      constructor <;> rfl

theorem panHandleStatusFuture_signed : Signed cpu (cpu.panHandleStatusFuture event) := by
  rw [PanCPU.panHandleStatusFuture]
  split
  · exact failed_signed .refl
  · exact push_signed .refl rfl _

theorem withHart_signed {handle : Core → Except PanFault PanCPU}
    (each : ∀ core, handle core = .ok after → Signed cpu after)
    (handled : cpu.withHart event handle = .ok after) : Signed cpu after := by
  rw [PanCPU.withHart] at handled
  split at handled
  · cases handled
    exact failed_signed .refl
  · split at handled
    · cases handled
      exact failed_signed .refl
    · split at handled
      · cases handled
      · exact each _ handled

theorem panHandleHalt_signed (handled : cpu.panHandleHalt event = .ok after) : Signed cpu after := by
  refine withHart_signed (fun core handled => ?_) handled
  cases handled
  apply raw_signed
  constructor <;> rfl

theorem panHandleReadReg_signed (handled : cpu.panHandleReadReg event = .ok after) : Signed cpu after := by
  refine withHart_signed (fun core handled => ?_) handled
  split at handled
  · cases handled
  · cases handled
    exact failed_signed .refl
  · cases handled
    exact push_signed .refl (basic_src _) _

theorem panHandleWriteReg_signed (handled : cpu.panHandleWriteReg event = .ok after) :
    Signed cpu after := by
  refine withHart_signed (fun core handled => ?_) handled
  split at handled
  · cases handled
  · split at handled
    · cases handled
    · cases handled
      exact failed_signed .refl
    · cases handled
      apply raw_signed
      constructor <;> rfl

theorem panHandleSingleStep_signed (handled : cpu.panHandleSingleStep event = .ok after) :
    Signed cpu after := by
  refine withHart_signed (fun core handled => ?_) handled
  split at handled
  · cases handled
    exact failed_signed .refl
  · cases handled
    apply push_signed
    · constructor <;> rfl
    · rfl

theorem handle_signed (asks : event.opcode.responds = false)
    (handled : cpu.handleNetPANMessage event rand fresh = .ok after) : Signed cpu after := by
  rw [PanCPU.handleNetPANMessage] at handled
  cases named : event.opcode <;> simp only [named] at handled asks
  case Success => exact absurd asks (by decide)
  case Failed => exact absurd asks (by decide)
  case SyncGet => exact panHandleSyncGet_signed handled
  case AsyncGet => exact panHandleGet_signed handled
  case SyncStreamGet => exact panHandleGet_signed handled
  case AsyncStreamGet => exact panHandleGet_signed handled
  case SyncPut => exact panHandlePut_signed handled
  case AsyncPut => exact panHandlePut_signed handled
  case SyncStreamPut => exact panHandlePut_signed handled
  case AsyncStreamPut => exact panHandlePut_signed handled
  case Halt => exact panHandleHalt_signed handled
  case ReadReg => exact panHandleReadReg_signed handled
  case WriteReg => exact panHandleWriteReg_signed handled
  case SingleStep => exact panHandleSingleStep_signed handled
  all_goals cases handled
  case Exec => exact panHandleExec_signed
  case Status => exact panHandleStatus_signed
  case Cancel => exact panHandleCancel_signed
  case Reserve => exact panHandleReserve_signed
  case Revoke => exact panHandleRevoke_signed
  case Resume => exact panHandleResume_signed
  case SetFuture => exact panHandleSetFuture_signed
  case RevokeFuture => exact panHandleRevokeFuture_signed
  case StatusFuture => exact panHandleStatusFuture_signed
  case BOTW => exact panHandleBOTW_signed

end Handlers

section Responses
variable {cpu base after : PanCPU} {event : PanNicEvent} {rand : BitVec 32} {fresh : Nat → Buffer}

/-- What a response does to the CPU that it reaches. -/
structure Closed (cpu : PanCPU) (event : PanNicEvent) (after : PanCPU) : Prop where
  tracked : (event.tag, event.src) ∈ cpu.trackTags
  same : after = { cpu with
    mem := after.mem, trackGets := after.trackGets, trackTags := cpu.trackTags.erase (event.tag, event.src) }

theorem closeTag_same {sig : BitVec 64} (closed : cpu.closeTag event sig fresh = .ok after) :
    after = { cpu with
      mem := after.mem, trackTags := cpu.trackTags.erase (event.tag, event.src) } := by
  rw [PanCPU.closeTag, PanCPU.panSignalMsgRecv] at closed
  cases signalled : PanCPU.signalFrom cpu.mem event.tag sig fresh rdmaMailbox rdmaMaxEntries with
  | error fault =>
    rw [signalled] at closed
    cases closed
  | ok mem =>
    rw [signalled] at closed
    cases closed
    rfl

theorem panHandleSuccess_closed (handled : cpu.panHandleSuccess event fresh = .ok after) :
    Closed cpu event after := by
  rw [PanCPU.panHandleSuccess] at handled
  split_ifs at handled with known
  cases delivered : PanCPU.deliverGets cpu.mem event.tag fresh [] cpu.trackGets with
  | error fault =>
    rw [delivered] at handled
    cases handled
  | ok result =>
    rw [delivered] at handled
    refine ⟨known, ?_⟩
    rw [closeTag_same handled]

theorem panHandleFailed_closed (handled : cpu.panHandleFailed event fresh = .ok after) :
    Closed cpu event after := by
  rw [PanCPU.panHandleFailed] at handled
  split_ifs at handled with known
  refine ⟨known, ?_⟩
  rw [closeTag_same handled]

theorem handle_closed (responds : event.opcode.responds = true)
    (handled : cpu.handleNetPANMessage event rand fresh = .ok after) : Closed cpu event after := by
  rw [PanCPU.handleNetPANMessage] at handled
  rcases Bool.or_eq_true_iff.mp responds with success | failed
  · rw [beq_iff_eq.mp success] at handled
    exact panHandleSuccess_closed handled
  · rw [beq_iff_eq.mp failed] at handled
    exact panHandleFailed_closed handled

theorem closeTag_fault {sig : BitVec 64} : cpu.closeTag event sig fresh ≠ .error .fatal := by
  rw [PanCPU.closeTag, PanCPU.panSignalMsgRecv]
  cases PanCPU.signalFrom cpu.mem event.tag sig fresh rdmaMailbox rdmaMaxEntries with
  | error fault =>
    intro same
    cases same
  | ok mem =>
    intro same
    cases same

theorem deliverGets_fault {mem : RevMem} {tag : BitVec 8} {before gets : List TrackGet} :
    PanCPU.deliverGets mem tag fresh before gets ≠ .error .fatal := by
  fun_induction PanCPU.deliverGets mem tag fresh before gets <;> first | assumption | exact nofun

theorem response_welcome (responds : event.opcode.responds = true)
    (tracked : (event.tag, event.src) ∈ cpu.trackTags) :
    cpu.handlePANMessage event rand fresh ≠ .error .fatal := by
  have known : ¬ (event.tag, event.src) ∉ cpu.trackTags := not_not_intro tracked
  have success : cpu.panHandleSuccess event fresh ≠ .error .fatal := by
    rw [PanCPU.panHandleSuccess, if_neg known]
    cases delivered : PanCPU.deliverGets cpu.mem event.tag fresh [] cpu.trackGets with
    | error fault =>
      intro fatal
      cases fatal
      exact deliverGets_fault delivered
    | ok result => exact closeTag_fault
  have failed : cpu.panHandleFailed event fresh ≠ .error .fatal := by
    rw [PanCPU.panHandleFailed, if_neg known]
    exact closeTag_fault
  rw [PanCPU.handlePANMessage, PanCPU.handleHostPANMessage, PanCPU.handleNetPANMessage]
  rcases Bool.or_eq_true_iff.mp responds with named | named
  · rw [beq_iff_eq.mp named, ite_self]
    exact success
  · rw [beq_iff_eq.mp named, ite_self]
    exact failed

end Responses

section Mailbox
variable {cpu middle after : PanCPU} {addr : BitVec 64} {head : Header} {kind : PanOpcode}
  {fresh : Nat → Buffer} {event built : PanNicEvent} {value : Buffer} {word : BitVec 64}

theorem Clear.trans (first : Clear cpu middle) (second : Clear middle after) : Clear cpu after :=
  ⟨second.address.trans first.address, second.trackTags.trans first.trackTags,
    second.sendMB.trans first.sendMB⟩

theorem readBytes_clear {len : Nat} {target data : Buffer}
    (read : cpu.readBytes addr len target = .ok (data, after)) : Clear cpu after := by
  rw [readBytes_same read]
  exact ⟨rfl, rfl, rfl⟩

theorem readWord_clear (read : cpu.readWord addr value = .ok (word, after)) : Clear cpu after := by
  rw [PanCPU.readWord] at read
  cases loaded : PanCPU.readU64 cpu.mem addr value with
  | error fault =>
    rw [loaded] at read
    cases read
  | ok result =>
    rw [loaded] at read
    cases read
    exact ⟨rfl, rfl, rfl⟩

theorem writeWord_clear (wrote : cpu.writeWord addr word = .ok after) : Clear cpu after := by
  rw [PanCPU.writeWord] at wrote
  cases stored : cpu.mem.writeMem 0 addr.toNat 8 (bytesOf word) with
  | error fault =>
    rw [stored] at wrote
    cases wrote
  | ok mem =>
    rw [stored] at wrote
    cases wrote
    exact ⟨rfl, rfl, rfl⟩

theorem convertGet_clear {build : BitVec 64 → BitVec 32 → PanNicEvent}
    (converted : cpu.convertGet addr head fresh build = .ok (built, after)) : Clear cpu after := by
  obtain ⟨⟨cmdAddr, middle⟩, read, rest⟩ := bind_inv converted
  obtain ⟨⟨dataAddr, last⟩, readData, done⟩ := bind_inv rest
  cases done
  have both := (readWord_clear read).trans (readWord_clear readData)
  exact both.trans ⟨rfl, rfl, rfl⟩

theorem convertPut_clear {build : BitVec 64 → BitVec 32 → (Nat → BitVec 64) → PanNicEvent}
    (converted : cpu.convertPut addr head fresh build = .ok (built, after)) : Clear cpu after := by
  obtain ⟨⟨cmdAddr, middle⟩, read, rest⟩ := bind_inv converted
  obtain ⟨⟨dataAddr, last⟩, readData, done⟩ := bind_inv rest
  obtain ⟨⟨data, final⟩, copied, returned⟩ := bind_inv done
  cases returned
  exact ((readWord_clear read).trans (readWord_clear readData)).trans (readBytes_clear copied)

theorem convertAddr_clear {build : BitVec 64 → PanNicEvent}
    (converted : cpu.convertAddr addr fresh build = .ok (built, after)) : Clear cpu after := by
  obtain ⟨⟨cmdAddr, middle⟩, read, done⟩ := bind_inv converted
  cases done
  exact readWord_clear read

theorem convertWriteReg_clear (converted : cpu.convertWriteReg addr head fresh event = .ok (built, after)) :
    Clear cpu after := by
  obtain ⟨⟨cmdAddr, middle⟩, read, rest⟩ := bind_inv converted
  obtain ⟨⟨data, last⟩, readData, done⟩ := bind_inv rest
  cases done
  exact (readWord_clear read).trans (readWord_clear readData)

theorem convertRevoke_clear (converted : cpu.convertRevoke head event = .ok (built, after)) :
    Clear cpu after := by
  obtain ⟨middle, wrote, done⟩ := bind_inv converted
  cases done
  exact writeWord_clear wrote

theorem convertBOTW_clear (converted : cpu.convertBOTW addr head fresh event = .ok (built, after)) :
    Clear cpu after := by
  obtain ⟨⟨data, middle⟩, read, done⟩ := bind_inv converted
  cases done
  exact readBytes_clear read

theorem convertOpcode_clear (converted : cpu.convertOpcode addr head fresh kind event = .ok (built, after)) :
    Clear cpu after := by
  cases kind
  case SyncGet => exact convertGet_clear converted
  case AsyncGet => exact convertGet_clear converted
  case SyncStreamGet => exact convertGet_clear converted
  case AsyncStreamGet => exact convertGet_clear converted
  case SyncPut => exact convertPut_clear converted
  case AsyncPut => exact convertPut_clear converted
  case SyncStreamPut => exact convertPut_clear converted
  case AsyncStreamPut => exact convertPut_clear converted
  case Exec => exact convertAddr_clear converted
  case ReadReg => exact convertAddr_clear converted
  case SetFuture => exact convertAddr_clear converted
  case WriteReg => exact convertWriteReg_clear converted
  case Revoke => exact convertRevoke_clear converted
  case BOTW => exact convertBOTW_clear converted
  case PanRsvd => cases converted
  all_goals
    cases converted
    exact .refl

theorem panConvert_signed (converted : cpu.panConvertRDMAtoEvent addr event fresh = .ok (built, after)) :
    Clear cpu after ∧ built.src = after.address := by
  obtain ⟨_, _, _, _, _, read, _, _, switched, rfl⟩ := panConvert_inv converted
  exact ⟨(readWord_clear read).trans (convertOpcode_clear switched), rfl⟩

theorem scanSlot_signed {slot : Nat} {found : Bool} (turned : cpu.scanSlot slot fresh = .ok (found, after)) :
    Signed cpu after := by
  obtain ⟨⟨payload, middle⟩, read, rest⟩ := bind_inv turned
  have first := readBytes_clear read
  dsimp only at rest
  split_ifs at rest
  · obtain ⟨⟨event, converted⟩, convert, mark⟩ := bind_inv rest
    obtain ⟨marked, wrote, done⟩ := bind_inv mark
    cases done
    obtain ⟨clear, src⟩ := panConvert_signed convert
    exact (push_signed (first.trans clear) src _).trans (writeWord_clear wrote).signed
  · cases rest
    exact first.signed

theorem scanFrom_signed {perCycle slot sent left next : Nat} {fresh : Nat → Nat → Buffer}
    (scanned : PanCPU.scanFrom perCycle fresh cpu slot sent left = .ok (after, next)) : Signed cpu after := by
  induction left generalizing cpu slot sent with
  | zero =>
    cases scanned
    exact Clear.refl.signed
  | succ left ih =>
    rw [PanCPU.scanFrom] at scanned
    cases turned : cpu.scanSlot slot (fresh left) with
    | error fault =>
      rw [turned] at scanned
      cases scanned
    | ok result =>
      rcases result with ⟨found, middle⟩
      rw [turned] at scanned
      dsimp only at scanned
      have first := scanSlot_signed turned
      generalize (if found then sent + 1 else sent) = count at scanned
      split_ifs at scanned
      · cases scanned
        exact first
      · exact first.trans (ih scanned)

theorem scanMailbox_signed {config : ClockConfig} {node : Node} {input : TickInput} {next : Nat}
    (scanned : node.scanMailbox config input = .ok (after, next)) : Signed node.cpu after := by
  have ran : Clear node.cpu
      { node.cpu with mem := input.mem, procs := input.procs, pExec := input.exec } := ⟨rfl, rfl, rfl⟩
  rw [Node.scanMailbox] at scanned
  dsimp only at scanned
  split_ifs at scanned
  · rw [PanCPU.panProcessRDMAMailbox] at scanned
    split_ifs at scanned
    · cases scanned
      exact ran.signed
    · exact ran.signed.trans (scanFrom_signed scanned)
  · cases scanned
    exact ran.signed

end Mailbox

section Reads
variable {cpu after : PanCPU} {fresh : Nat → Buffer} {rqsts : List ReadRqst}

theorem answerReads_signed (answered : PanCPU.answerReads fresh cpu rqsts = .ok after) :
    Signed cpu after := by
  induction rqsts generalizing cpu with
  | nil =>
    cases answered
    exact Clear.refl.signed
  | cons rqst rest ih =>
    rw [PanCPU.answerReads] at answered
    split_ifs at answered
    · cases read : cpu.answerRead rqst (fresh rest.length) with
      | error fault =>
        rw [read] at answered
        cases answered
      | ok next =>
        rw [read] at answered
        refine Signed.trans ?_ (ih answered)
        rw [PanCPU.answerRead] at read
        split at read
        · cases read
        · cases read
          apply push_signed
          · constructor <;> rfl
          · rfl
    · exact ih answered

theorem processPANMemRead_signed (read : cpu.processPANMemRead fresh = .ok after) : Signed cpu after := by
  rw [PanCPU.processPANMemRead] at read
  split at read
  · cases read
  · rename_i next answered
    cases read
    have signed := answerReads_signed answered
    exact ⟨signed.address, signed.trackTags, signed.posts⟩

end Reads

section Send
variable {cpu after : PanCPU} {count : Nat}

theorem sendMessages_address (sent : cpu.sendMessages count = .ok after) : after.address = cpu.address := by
  induction count generalizing cpu with
  | zero =>
    cases sent
    rfl
  | succ count ih =>
    obtain ⟨middle, first, rest⟩ := bind_inv sent
    refine (ih rest).trans ?_
    rw [PanCPU.sendPANMessage] at first
    split at first
    · cases first
      rfl
    · dsimp only [PanCPU.finishRevoke] at first
      split at first
      · split at first
        · cases first
        · cases first
          rfl
      · cases first
        rfl

theorem sendMessages_net (sent : cpu.sendMessages count = .ok after) :
    after.net = cpu.net ++ cpu.sendMB.take count := by
  have posted : after.posted = cpu.posted := by
    induction count generalizing cpu with
    | zero =>
      cases sent
      rfl
    | succ count ih =>
      obtain ⟨middle, first, rest⟩ := bind_inv sent
      exact (ih rest).trans (sendPANMessage_sent first).posted
  rw [PanCPU.posted, PanCPU.posted, (sendMessages_all sent).sendMB] at posted
  have whole : cpu.net ++ cpu.sendMB = (cpu.net ++ cpu.sendMB.take count) ++ cpu.sendMB.drop count := by
    rw [List.append_assoc, List.take_append_drop]
  exact List.append_cancel_right (posted.trans whole)

end Send
end RevCPU.Pan
