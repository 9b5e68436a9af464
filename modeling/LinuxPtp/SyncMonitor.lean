import LinuxPtp.Acceptance
import LinuxPtp.Runs
import LinuxPtp.TimestampProcessor
import LinuxPtp.TransparentClock

/-!
# The monitor of network synchronization

`nsm` sends a request and collects the Sync, the Follow_Up and the Delay_Resp that answer it. It
computes an offset once it holds them all, and then reads what the Delay_Resp reports behind its
body, without looking at the TLVs that the parser found there.
-/

namespace LinuxPtp.SyncMonitor

open Octets Recv Runs Tmv

section Model

variable (order : ByteOrder)

/-! ## The code (`nsm.c`, `tsproc.c`) -/

/-- A message that `nsm_recv` has returned. -/
structure NsmMessage where
  msg : Message
  hwts : Int

/-- What is left of a request that was sent. -/
structure NsmRequest where
  sequenceId : Nat
  hwts : Int

/-- `struct nsm`. -/
structure Nsm where
  delayReq : Option NsmRequest := none
  delayResp : Option NsmMessage := none
  sync : Option NsmMessage := none
  fup : Option NsmMessage := none
  sequenceId : Nat := 0

def NsmMessage.sequenceId (m : NsmMessage) : Nat := load order PtpHeader.sequenceId m.msg.data

/-- `field_is_set` for the first octet of flags. -/
def NsmMessage.fieldIsSet (m : NsmMessage) (flag : UInt8) : Bool :=
  m.msg.data PtpHeader.flagField &&& flag ≠ 0

/-- `one_step`; the monitor never sets `assume_two_step`. -/
def NsmMessage.oneStep (m : NsmMessage) : Bool := !m.fieldIsSet twoStep

/-- `correction_to_tmv` of the header's correction. -/
def NsmMessage.correction (m : NsmMessage) : Int :=
  correctionToTmv (int64 (load order PtpHeader.correction m.msg.data))

/-- `timestamp_to_tmv`. -/
def timestampToTmv (ts : BinaryTimestamp) : Int := int64 (ts.sec * 1000000000 + ts.nsec)

/-- The time stamp processor that `nsm_open` creates. It is reset before each use, and its filter is
never given a delay. -/
def nsmTsproc : TimestampProcessor.Tsproc :=
  TimestampProcessor.tsprocCreate .raw (.movingAverage (Filters.maveCreate 10))

/-- `nsm_complete`. -/
def nsmComplete (nsm : Nsm) : Bool :=
  match nsm.sync with
  | none => false
  | some sync =>
    if sync.oneStep then nsm.delayResp.isSome else nsm.delayResp.isSome && nsm.fup.isSome

/-- `nsm_compute_offset`. There is no result if a null pointer is followed, and no offset where
`tsproc_update_offset` leaves the variable as it was. -/
def nsmComputeOffset (syn fup : Option NsmMessage) (req : Option NsmRequest)
    (resp : Option NsmMessage) : Option (Option Int) := do
  let syn ← syn
  let fup ← fup
  let resp ← resp
  let req ← req
  let t1c := tmvAdd (timestampToTmv fup.msg.pdu) (tmvAdd (syn.correction order) (fup.correction order))
  let t4c := tmvSub (timestampToTmv resp.msg.pdu) (resp.correction order)
  let tsp := TimestampProcessor.tsprocDownTs t1c syn.hwts (TimestampProcessor.tsprocReset true nsmTsproc)
  pure (TimestampProcessor.tsprocUpdateOffset (TimestampProcessor.tsprocUpTs req.hwts t4c tsp))

/-- `MAX_PRINT_BYTES`, which bounds what `portaddr2str` reads of an address. -/
def maxPrintBytes : Nat := 16

/-- What is read of a `struct nsm_resp_tlv_head`. -/
def headReads (head addressLength : Nat) : List Field :=
  [⟨head + 4, 1⟩, NsmRespTlvHead.networkProtocol.shift head,
   NsmRespTlvHead.addressLength.shift head,
   ⟨head + NsmRespTlvHead.size, min addressLength maxPrintBytes⟩]

/-- What is read of a `struct nsm_resp_tlv_foot`: the members of the parent data set, the current
data set, the members of the time properties and the time of the last Sync. -/
def footMembers : List Field :=
  [⟨0, 10⟩, ⟨10, 1⟩, ⟨12, 2⟩, ⟨14, 4⟩, ⟨18, 1⟩, ⟨19, 1⟩, ⟨20, 1⟩, ⟨21, 2⟩, ⟨23, 1⟩, ⟨24, 8⟩,
   ⟨NsmRespTlvFoot.current, CurrentDS.size⟩,
   ⟨NsmRespTlvFoot.timeprop, 2⟩, ⟨NsmRespTlvFoot.timeprop + 2, 1⟩,
   ⟨NsmRespTlvFoot.timeprop + 3, 1⟩, ⟨54, Timestamp.size⟩]

/-- What `nsm_handle_msg` reads behind the body of a Delay_Resp. -/
def responseReads (resp : NsmMessage) : List Field :=
  let head := DelayRespMsg.size
  let addressLength := load order (NsmRespTlvHead.addressLength.shift head) resp.msg.data
  headReads head addressLength ++
    footMembers.map (·.shift (head + NsmRespTlvHead.size + addressLength))

/-- What the end of `nsm_handle_msg` does with the messages that it holds. -/
structure Measurement where
  response : NsmMessage
  offset : Option (Option Int)
  reads : List Field

/-- `nsm_reset`. -/
def nsmReset (nsm : Nsm) : Nsm := { sequenceId := nsm.sequenceId }

/-- The switch of `nsm_handle_msg`. Types that are none of its business end the function. -/
def nsmKeep (nsm : Nsm) (msg : NsmMessage) : Option Nsm :=
  match msgType msg.msg.data with
  | some .sync => some { nsm with sync := nsm.sync <|> some msg }
  | some .followUp => some { nsm with fup := nsm.fup <|> some msg }
  | some .delayResp => some { nsm with delayResp := nsm.delayResp <|> some msg }
  | some .delayReq | some .pdelayReq | some .pdelayResp | some .pdelayRespFollowUp
  | some .announce | some .signaling | some .management => none
  | none => some nsm

/-- The guards of `nsm_handle_msg`, and its switch. -/
def nsmTake (nsm : Nsm) (msg : NsmMessage) : Option Nsm :=
  match nsm.delayReq with
  | none => none
  | some req =>
    if msg.sequenceId order ≠ req.sequenceId then none
    else if !msg.fieldIsSet unicast then none
    else nsmKeep nsm msg

/-- The computation at the end of `nsm_handle_msg`. -/
def nsmMeasure (nsm : Nsm) : Option Measurement :=
  nsm.delayResp.map fun response =>
    ⟨response, nsmComputeOffset order nsm.sync nsm.fup nsm.delayReq nsm.delayResp,
      responseReads order response⟩

/-- `nsm_handle_msg`. -/
def nsmHandleMsg (nsm : Nsm) (msg : NsmMessage) : Option Measurement × Nsm :=
  match nsmTake order nsm msg with
  | none => (none, nsm)
  | some nsm => if !nsmComplete nsm then (none, nsm) else (nsmMeasure order nsm, nsmReset nsm)

/-- `msg_sots_missing`. -/
def msgSotsMissing (m : NsmMessage) : Bool :=
  match msgType m.msg.data with
  | some .sync | some .delayReq | some .pdelayReq | some .pdelayResp => m.hwts = 0
  | _ => false

/-- `nsm_recv`, of a frame whose length and octets are supplied with its time stamp. -/
def nsmRecv (now : Int) (cnt : Nat) (data : Storage) (hwts : Int) : Option NsmMessage :=
  match msgPostRecv order now cnt (Message.fresh data) with
  | .error _ _ => none
  | .ok _ reached =>
    if msgSotsMissing ⟨reached.msg, hwts⟩ then none else some ⟨reached.msg, hwts⟩

/-- `nsm_request` from where the sequence number is taken, with the outcome of the transmission. -/
def nsmRequest (sent : Bool) (hwts : Int) (nsm : Nsm) : Nsm :=
  let next := { nsm with sequenceId := (nsm.sequenceId + 1) % 2 ^ 16 }
  if !sent || hwts = 0 then next
  else { nsmReset next with delayReq := some ⟨nsm.sequenceId, hwts⟩ }

/-- One turn of the loop in `main`: a command, a frame, or the end of the wait for one. -/
inductive Event where
  | request (sent : Bool) (hwts : Int)
  | frame (now : Int) (cnt : Nat) (data : Storage) (hwts : Int)
  | timeout

/-- A frame is handled if it was received. -/
def handled (nsm : Nsm) (now : Int) (cnt : Nat) (data : Storage) (hwts : Int) :
    Option Measurement × Nsm :=
  match nsmRecv order now cnt data hwts with
  | none => (none, nsm)
  | some msg => nsmHandleMsg order nsm msg

/-- The monitor after an event. -/
def nsmStep (nsm : Nsm) : Event → Nsm
  | .request sent hwts => nsmRequest sent hwts nsm
  | .frame now cnt data hwts => (handled order nsm now cnt data hwts).2
  | .timeout => nsmReset nsm

/-- What is computed at an event. -/
def measured (nsm : Nsm) : Event → Option Measurement
  | .frame now cnt data hwts => (handled order nsm now cnt data hwts).1
  | _ => none

end Model

/-! ## What is asked of it -/

section Property

variable (order : ByteOrder)

/-- Octets in the value of a TLV of type PTPMON_RESP that the parser has listed. -/
def InResponse (resp : NsmMessage) (read : Field) : Prop :=
  ∃ extra ∈ resp.msg.tlvList, (readingAt order resp.msg.data extra.tlv).type = .ptpmonResp ∧
    extra.tlv + Tlv.size ≤ read.offset ∧ read.stop ≤ tlvStop order resp.msg.data extra.tlv

/-- What is computed at an event follows no null pointer and stays in a response. -/
def OnCompleteData (nsm : Nsm) (event : Event) : Prop :=
  ∀ measurement, measured order nsm event = some measurement →
    measurement.offset ≠ none ∧
      ∀ read ∈ measurement.reads, InResponse order measurement.response read

/-- The first TLV of a Delay_Resp is a response. -/
def Answers (resp : NsmMessage) : Prop :=
  ∃ extra, resp.msg.tlvList.head? = some extra ∧
    (readingAt order resp.msg.data extra.tlv).type = .ptpmonResp

/-- What the computation takes for granted of the messages held: a one-step Sync has a Follow_Up
when the Delay_Resp is there, and the Delay_Resp begins with a response. -/
structure Granted (nsm : Nsm) : Prop where
  followed : ∀ sync, nsm.sync = some sync → sync.oneStep → nsm.delayResp ≠ none → nsm.fup ≠ none
  answered : ∀ resp, nsm.delayResp = some resp → nsmComplete nsm → Answers order resp

/-- No frame that the monitor takes leaves it with messages of another kind. -/
def Expected (nsm : Nsm) : Event → Prop
  | .frame now cnt data hwts => ∀ msg, nsmRecv order now cnt data hwts = some msg →
      ∀ after, nsmTake order nsm msg = some after → Granted order after
  | _ => True

end Property

/-! ## Delay_Resps as they are held -/

section Held

variable {order : ByteOrder}

/-- A Delay_Resp as the parser has left it. -/
def Genuine (order : ByteOrder) (resp : NsmMessage) : Prop :=
  ∃ now cnt wire starts, Accepted wire cnt .delayResp starts ∧
    resp.msg = decoded order now .delayResp starts (Message.fresh wire)

/-- The Delay_Resp held is one. -/
def Held (order : ByteOrder) (nsm : Nsm) : Prop :=
  ∀ resp, nsm.delayResp = some resp → Genuine order resp

/-- Its TLVs lie behind its body, the first of them at once, and have the size they should have. -/
theorem Genuine.tlvs {resp : NsmMessage} (genuine : Genuine order resp) :
    (∀ extra ∈ resp.msg.tlvList, DelayRespMsg.size ≤ extra.tlv ∧
      (readingAt order resp.msg.data extra.tlv).WellSized) ∧
    ∀ extra, resp.msg.tlvList.head? = some extra → extra.tlv = DelayRespMsg.size := by
  obtain ⟨now, cnt, wire, starts, accepted, decodes⟩ := genuine
  have suffix : Suffix .big (headed order .delayResp wire) cnt DelayRespMsg.size starts :=
    (suffix_headed order).mpr accepted.suffix
  have named := decoded_starts order now .delayResp starts wire
  have laid : Laid order resp.msg.data DelayRespMsg.size starts := by
    rw [decodes]
    exact received_laid order (suffix_laid suffix)
  rw [← decodes] at named
  constructor
  · intro extra member
    refine laid_member laid extra.tlv ?_
    rw [← named]
    exact List.mem_map_of_mem member
  · intro extra first
    have head : starts.head? = some extra.tlv := by
      rw [← named, List.head?_map, first]
      rfl
    cases suffix with
    | done start short => simp at head
    | tlv start rest admitted tail => exact (Option.some.inj head).symm

theorem headReads_inside {head addressLength : Nat} {read : Field}
    (present : read ∈ headReads head addressLength) :
    head + Tlv.size ≤ read.offset ∧ read.stop ≤ head + NsmRespTlvHead.size + addressLength := by
  simp only [headReads, List.mem_cons, List.not_mem_nil, or_false] at present
  rcases present with rfl | rfl | rfl | rfl <;>
    simp only [Field.stop, Field.shift, Tlv.size, NsmRespTlvHead.size,
      NsmRespTlvHead.networkProtocol, NsmRespTlvHead.addressLength] <;> omega

theorem footMembers_inside : ∀ member ∈ footMembers, member.stop ≤ NsmRespTlvFoot.size := by decide

/-- Behind a response, everything that is read lies in its value. -/
theorem Genuine.inside {resp : NsmMessage} (genuine : Genuine order resp)
    (answers : Answers order resp) : ∀ read ∈ responseReads order resp, InResponse order resp read := by
  obtain ⟨extra, first, type⟩ := answers
  obtain ⟨shapes, starts⟩ := genuine.tlvs
  have start := starts extra first
  have member := List.mem_of_head? first
  have sized := (shapes extra member).2
  simp only [Reading.WellSized, type] at sized
  have length := sized.2
  rw [start] at length
  intro read present
  refine ⟨extra, member, type, ?_⟩
  rw [tlvStop, start, length]
  have address : load order (NsmRespTlvHead.addressLength.shift DelayRespMsg.size) resp.msg.data =
      (readingAt order resp.msg.data DelayRespMsg.size).word 8 := rfl
  simp only [responseReads, address] at present
  simp only [Tlv.size]
  rcases List.mem_append.mp present with head | foot
  · have bounds := headReads_inside head
    simp only [NsmRespTlvHead.size, Tlv.size] at bounds
    omega
  · obtain ⟨part, listed, rfl⟩ := List.mem_map.mp foot
    have bound := footMembers_inside part listed
    simp only [NsmRespTlvFoot.size] at bound
    simp only [Field.shift_offset, Field.shift_stop, NsmRespTlvHead.size]
    omega

/-- The state of the port is read from a response only where the first TLV is one. -/
theorem Genuine.answers {resp : NsmMessage} (genuine : Genuine order resp)
    (inside : InResponse order resp ⟨DelayRespMsg.size + 4, 1⟩) : Answers order resp := by
  obtain ⟨shapes, starts⟩ := genuine.tlvs
  obtain ⟨extra, member, type, low, -⟩ := inside
  have here : extra.tlv = DelayRespMsg.size := by
    have behind := (shapes extra member).1
    simp only [Tlv.size] at low
    omega
  cases first : resp.msg.tlvList.head? with
  | none => simp [List.head?_eq_none_iff.mp first] at member
  | some leading =>
    refine ⟨leading, first, ?_⟩
    rwa [starts leading first, ← here]

end Held

/-! ## Frames and messages that are taken -/

section Steps

variable {order : ByteOrder} {nsm after : Nsm} {msg : NsmMessage} {now hwts : Int} {cnt : Nat}
  {data : Storage}

theorem headed_above (type : MsgType) : ∀ field ∈ hdrFields ++ bodyFields type, 2 ≤ field.offset := by
  cases type <;> decide

/-- Parsing leaves the type of a message where it is. -/
theorem decoded_msgType {type : MsgType} {starts : List Nat} (accepted : Accepted data cnt type starts)
    (now : Int) : msgType (decoded order now type starts (Message.fresh data)).data = some type := by
  obtain ⟨stop, -, suffix, -⟩ := suffixOf_region accepted.suffix accepted.long
  have laid := suffix_laid ((suffix_headed order).mpr suffix)
  have behind := pduLen_bound type
  have kept : (decoded order now type starts (Message.fresh data)).data PtpHeader.tsmt =
      data PtpHeader.tsmt := by
    refine (confined_before (confined_tlvIn order) laid (by simp only [PtpHeader.tsmt]; omega)).trans
      (convertAll_outside fun field member inside => ?_)
    have above := headed_above type field member
    have low := inside.1
    simp only [PtpHeader.tsmt] at low
    omega
  rw [msgType, kept]
  exact accepted.known

/-- A Delay_Resp that was received is as the parser left it. -/
theorem nsmRecv_genuine (received : nsmRecv order now cnt data hwts = some msg)
    (delayResp : msgType msg.msg.data = some .delayResp) : Genuine order msg := by
  rw [nsmRecv] at received
  split at received
  · cases received
  case h_2 reached parsed =>
    split at received
    · cases received
    obtain rfl := Option.some.inj received
    obtain ⟨type, starts, accepted⟩ :=
      (msgPostRecv_grammar order now cnt data).2.2.1.mp ⟨reached, parsed⟩
    obtain ⟨last, accesses, -, run⟩ := msgPostRecv_accepted order now (Message.fresh data) accepted
    have same : reached.msg = decoded order now type starts (Message.fresh data) := by
      rw [run] at parsed
      rw [← (EStateM.Result.ok.inj parsed).2]
    have known : msgType (decoded order now type starts (Message.fresh data)).data = some type :=
      decoded_msgType accepted now
    rw [← same, delayResp] at known
    obtain rfl := Option.some.inj known
    exact ⟨now, cnt, data, starts, accepted, same⟩

/-- Messages are taken for a request that was sent. -/
theorem nsmTake_keeps (taken : nsmTake order nsm msg = some after) :
    nsm.delayReq.isSome ∧ nsmKeep nsm msg = some after := by
  rw [nsmTake] at taken
  split at taken
  · cases taken
  case h_2 req waiting =>
    split at taken
    · cases taken
    split at taken
    · cases taken
    · exact ⟨by rw [waiting]; rfl, taken⟩

/-- Taking a message does not touch the request, and the Delay_Resp held afterwards was held before
or is the message. -/
theorem nsmKeep_holds (kept : nsmKeep nsm msg = some after) :
    after.delayReq = nsm.delayReq ∧ ∀ resp, after.delayResp = some resp →
      nsm.delayResp = some resp ∨ msg = resp ∧ msgType msg.msg.data = some .delayResp := by
  rw [nsmKeep] at kept
  split at kept <;> (try cases kept) <;> refine ⟨rfl, fun resp holds => ?_⟩
  case h_3 type =>
    rcases held : nsm.delayResp with _ | old
    · simp only [held] at holds
      exact .inr ⟨Option.some.inj holds, type⟩
    · simp only [held] at holds
      exact .inl holds
  all_goals exact .inl holds

theorem nsmTake_held (held : Held order nsm) (received : nsmRecv order now cnt data hwts = some msg)
    (taken : nsmTake order nsm msg = some after) : Held order after := by
  intro resp holds
  rcases (nsmKeep_holds (nsmTake_keeps taken).2).2 resp holds with old | ⟨rfl, delayResp⟩
  · exact held resp old
  · exact nsmRecv_genuine received delayResp

theorem held_reset : Held order (nsmReset nsm) := fun _ holds => by cases holds

/-- Every Delay_Resp that is held has been parsed. -/
theorem nsmStep_held (held : Held order nsm) (event : Event) : Held order (nsmStep order nsm event) := by
  cases event with
  | request sent hwts =>
    simp only [nsmStep, nsmRequest]
    split
    · exact held
    · exact fun _ holds => by cases holds
  | timeout => exact held_reset
  | frame now cnt data hwts =>
    simp only [nsmStep, handled]
    split
    · exact held
    case h_2 msg received =>
      simp only [nsmHandleMsg]
      split
      · exact held
      case h_2 after taken =>
        split
        · exact nsmTake_held held received taken
        · exact held_reset

end Steps

/-! ## When the data is complete -/

section Complete

variable {order : ByteOrder} {nsm after : Nsm}

/-- The computation follows four pointers. -/
theorem nsmComputeOffset_ne_none {syn fup resp : Option NsmMessage} {req : Option NsmRequest} :
    nsmComputeOffset order syn fup req resp ≠ none ↔
      syn.isSome ∧ fup.isSome ∧ resp.isSome ∧ req.isSome := by
  cases syn <;> cases fup <;> cases resp <;> cases req <;> simp [nsmComputeOffset]

/-- The messages are complete for the code. -/
theorem nsmComplete_iff : nsmComplete nsm ↔ ∃ sync, nsm.sync = some sync ∧ nsm.delayResp.isSome ∧
    (sync.oneStep ∨ nsm.fup.isSome) := by
  rw [nsmComplete]
  cases nsm.sync with
  | none => simp
  | some sync => cases stepped : sync.oneStep <;> simp [stepped]

/-- What is granted is what the computation needs. -/
theorem granted_iff (held : Held order after) (waiting : after.delayReq.isSome) :
    Granted order after ↔ (nsmComplete after →
      ∀ measurement, nsmMeasure order after = some measurement → measurement.offset ≠ none ∧
        ∀ read ∈ measurement.reads, InResponse order measurement.response read) := by
  constructor
  · rintro ⟨followed, answered⟩ complete measurement measures
    obtain ⟨resp, holds, rfl⟩ := Option.map_eq_some_iff.mp measures
    obtain ⟨sync, synced, responded, either⟩ := nsmComplete_iff.mp complete
    have hasFollowUp : after.fup.isSome := by
      rcases either with stepped | has
      · exact Option.isSome_iff_ne_none.mpr
          (followed sync synced stepped (Option.isSome_iff_ne_none.mp responded))
      · exact has
    refine ⟨nsmComputeOffset_ne_none.mpr ⟨by rw [synced]; rfl, hasFollowUp, responded, waiting⟩, ?_⟩
    exact (held resp holds).inside (answered resp holds complete)
  · intro sound
    constructor
    · intro sync synced stepped responded
      obtain ⟨resp, holds⟩ := Option.ne_none_iff_exists'.mp responded
      have complete : nsmComplete after := nsmComplete_iff.mpr
        ⟨sync, synced, by rw [holds]; rfl, .inl stepped⟩
      have measures := sound complete _ (Option.map_eq_some_iff.mpr ⟨resp, holds, rfl⟩)
      exact Option.isSome_iff_ne_none.mp (nsmComputeOffset_ne_none.mp measures.1).2.1
    · intro resp holds complete
      have measures := sound complete _ (Option.map_eq_some_iff.mpr ⟨resp, holds, rfl⟩)
      refine (held resp holds).answers (measures.2 _ ?_)
      exact List.mem_append_left _ List.mem_cons_self

/-- At an event that meets a Delay_Resp as the parser left it. -/
theorem expected_iff (held : Held order nsm) (event : Event) :
    Expected order nsm event ↔ OnCompleteData order nsm event := by
  cases event with
  | request sent hwts => exact iff_of_true trivial fun _ measures => by cases measures
  | timeout => exact iff_of_true trivial fun _ measures => by cases measures
  | frame now cnt data hwts =>
    cases received : nsmRecv order now cnt data hwts with
    | none => simp [Expected, OnCompleteData, measured, handled, received]
    | some msg =>
      cases taken : nsmTake order nsm msg with
      | none => simp [Expected, OnCompleteData, measured, handled, received, nsmHandleMsg, taken]
      | some after =>
        have waiting : after.delayReq.isSome := by
          obtain ⟨waits, kept⟩ := nsmTake_keeps taken
          rwa [(nsmKeep_holds kept).1]
        have exact := granted_iff (nsmTake_held held received taken) waiting
        simp only [Expected, OnCompleteData, measured, handled, received, nsmHandleMsg, taken,
          Option.some.injEq, forall_eq']
        rw [exact]
        cases complete : nsmComplete after <;> simp

/-- In every run, everything is computed on complete data exactly if no frame leaves the monitor with
messages that it does not expect.

Proof: what the monitor holds it has accepted as parts of an answer to its own request, and this is
kept from step to step. Along such a run each step is as expected exactly if it computes on complete
data. What goes wrong is a one-step Sync, which completes without the Follow_Up that is then read,
and a Delay_Resp with something else behind it than is read there. -/
theorem monitor_complete (order : ByteOrder) (events : List Event) :
    Along (nsmStep order) (Expected order) {} events ↔
      Along (nsmStep order) (OnCompleteData order) {} events := by
  have initially : Held order {} := fun _ holds => by cases holds
  exact along_congr initially (fun _ event held => nsmStep_held held event)
    fun _ event held => expected_iff held event

/-- Unicast messages of the first request: a Sync in one step and one in two, a Follow_Up, and a
Delay_Resp without a TLV. -/
def lonelySync : Storage := bufferOf [0x00, 0x02, 0, 44, 0, 0, 4]
def followedSync : Storage := bufferOf [0x00, 0x02, 0, 44, 0, 0, 6]
def emptyFollowUp : Storage := bufferOf [0x08, 0x02, 0, 44, 0, 0, 4]
def bareDelayResp : Storage := bufferOf [0x09, 0x02, 0, 54, 0, 0, 4]

/-- The first Sync completes the messages with a null pointer for the Follow_Up, and the Delay_Resp
has nothing that could be read. -/
theorem monitor_incomplete :
    ¬ Along (nsmStep .little) (OnCompleteData .little) {}
      [.request true 5, .frame 0 44 lonelySync 5, .frame 0 54 bareDelayResp 0] ∧
    ¬ Along (nsmStep .little) (OnCompleteData .little) {}
      [.request true 5, .frame 0 44 followedSync 5, .frame 0 44 emptyFollowUp 0,
        .frame 0 54 bareDelayResp 0] := by
  constructor
  · rintro ⟨-, -, here, -⟩
    have null : (measured .little (nsmStep .little (nsmStep .little {} (.request true 5))
        (.frame 0 44 lonelySync 5)) (.frame 0 54 bareDelayResp 0)).map (·.offset.isNone) =
        some true := by decide +kernel
    obtain ⟨measurement, measures, offset⟩ := Option.map_eq_some_iff.mp null
    exact (here measurement measures).1 (Option.isNone_iff_eq_none.mp offset)
  · rintro ⟨-, -, -, here, -⟩
    have bare : (measured .little (nsmStep .little (nsmStep .little (nsmStep .little {}
        (.request true 5)) (.frame 0 44 followedSync 5)) (.frame 0 44 emptyFollowUp 0))
        (.frame 0 54 bareDelayResp 0)).map
          (fun measurement => measurement.response.msg.tlvList.isEmpty &&
            !measurement.reads.isEmpty) = some true := by decide +kernel
    obtain ⟨measurement, measures, empty⟩ := Option.map_eq_some_iff.mp bare
    simp only [Bool.and_eq_true, List.isEmpty_iff, Bool.not_eq_true',
      List.isEmpty_eq_false_iff] at empty
    obtain ⟨read, present⟩ := List.exists_mem_of_ne_nil _ empty.2
    obtain ⟨extra, member, -⟩ := (here measurement measures).2 read present
    rw [empty.1] at member
    cases member

end Complete

end LinuxPtp.SyncMonitor
