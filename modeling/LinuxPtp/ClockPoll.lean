import LinuxPtp.PortEvents

/-!
# The clock at work

The event functions of the three kinds of ports, the state decision, and `clock_poll`. Of what a
transparent clock forwards, only the faults at its egress ports are kept here.

A poll is a list of steps in the order in which `clock_poll` makes them. A port that is FAULTY
after one of its descriptors was handled has its fault timer set, and its other descriptors are
passed over in this poll.
-/

namespace LinuxPtp

open RefPool

section Events

variable (c : Clock) (a : Answers)

/-! ## Reception -/

/-- `path_trace_ignore`. -/
def pathTraceIgnore (p : Nat) (m : PtpMessage) : Bool :=
  (c.setup p).pathTraceEnabled && m.type = .announce &&
    m.tlvs.any fun tlv => tlv.type = .pathTrace && tlv.cid.contains c.clockIdentity

/-- What `port_ignore` and `tc_ignore` have in common. -/
def tcIgnore (p : Nat) (m : PtpMessage) : Bool :=
  (c.setup p).matchTransportSpecific && m.transportSpecific ≠ (c.setup p).transportSpecific ||
    m.sourcePortIdentity = c.portIdentity p ||
    m.domainNumber ≠ c.domainNumber ||
    m.sourcePortIdentity.clockIdentity = c.clockIdentity

/-- `port_ignore`, with the answer of `port_capable`. -/
def portIgnore (capable : Bool) (p : Nat) (m : PtpMessage) : Bool :=
  !capable && (m.type = .announce || m.type = .sync) || pathTraceIgnore c p m || tcIgnore c p m

/-- `clock_management_set`. -/
def clockManagementSet (setting : Setting) (s : ClockState) : ClockState :=
  match setting with
  | .priority1 number => { s with dds := { s.dds with priority1 := number } }
  | .priority2 number => { s with dds := { s.dds with priority2 := number } }
  | .grandmasterSettings quality utcOffset timeFlags timeSource =>
    let dds := { s.dds with clockQuality := quality }
    { s with dds := dds, utcOffset := utcOffset, timeFlags := timeFlags, timeSource := timeSource }

/-- `clock_manage`, as far as it changes the state: whether a change calls for a decision. -/
def clockManage (p : Nat) (m : PtpMessage) (s : ClockState) : Bool × ClockState :=
  let s := (List.range a.replies).foldl (fun s _ => s.scratch (c.newMessage p .management)) s
  match m.setting with
  | none => (false, s)
  | some setting => if p = 0 then (true, clockManagementSet setting s) else (false, s)

/-- A fault if the handler failed. -/
def faultIf (result : Bool × ClockState) : FsmEvent × ClockState :=
  (if result.1 then .faultDetected else .none, result.2)

/-- A decision if the handler asks for one. -/
def decisionIf (result : Bool × ClockState) : FsmEvent × ClockState :=
  (if result.1 then .stateDecisionEvent else .none, result.2)

/-- The switch over the type of a received message in `bc_event`. -/
def bcProcess (p : Nat) (m : Stored) (s : ClockState) : FsmEvent × ClockState :=
  match m.msg.type with
  | .sync => (.none, processSync c a p m s)
  | .delayReq => faultIf (processDelayReq c a p m s)
  | .pdelayReq => faultIf (processPdelayReq c a p m s)
  | .pdelayResp => faultIf (processPdelayResp c a p m s)
  | .followUp => (.none, processFollowUp c a p m s)
  | .delayResp => (.none, processDelayResp c p m s)
  | .pdelayRespFollowUp => (.none, processPdelayRespFup c p m s)
  | .announce => decisionIf (processAnnounce c a p m s)
  | .signaling => (.none, s)
  | .management => decisionIf (clockManage c a p m.msg s)

/-- A message arrives at a socket of a boundary or ordinary clock. -/
def bcReceive (p : Nat) (s : ClockState) : FsmEvent × ClockState :=
  match a.received with
  | .failed => (.faultDetected, s.scratch PtpMessage.blank)
  | .rejected => (.none, s.scratch PtpMessage.blank)
  | .message msg =>
    let (m, s) := s.obtain msg
    let (capable, s) := portCapable a s
    let (event, s) := if portIgnore c capable p msg then (.none, s) else bcProcess c a p m s
    (event, s.release m.cell)

/-! ## Forwarding by transparent clocks -/

/-- `tc_blocked` for a parsed message. -/
def egressBlocked (q p : Nat) (m : PtpMessage) (s : ClockState) : Bool :=
  if q = p then true
  else if p = 0 then true
  else if !(c.setup q).tcSpanningTree then false
  else if m.domainNumber ≠ c.domainNumber then false
  else
    let request := m.type = .delayReq
    let ingress : Bool := match (s.ports q).state with
      | .initializing | .faulty | .disabled | .listening | .preMaster | .passive => true
      | .master | .grandMaster => !request
      | .uncalibrated | .slave => false
    let egress : Bool := match (s.ports p).state with
      | .initializing | .faulty | .disabled | .listening | .preMaster | .passive => true
      | .uncalibrated | .slave => !request
      | .master | .grandMaster => request
    ingress || egress

/-- The network ports, from `clock_first_port` on. -/
def Clock.ports (c : Clock) : List Nat := List.range' 1 c.nports

/-- One egress port: a fault if the frame, its time stamp or what completes it fails there. -/
def forwardTo (q : Nat) (m : PtpMessage) (s : ClockState) (p : Nat) : ClockState :=
  if egressBlocked c q p m s then s
  else if a.egress p s.asked then s.ask
  else portDispatch c a p .faultDetected false s.ask

/-- A pass over the egress ports. -/
def forwardPass (q : Nat) (m : PtpMessage) (s : ClockState) : ClockState :=
  c.ports.foldl (forwardTo c a q m) s

/-- `tc_fwd_event`: the frame goes out, and then the time stamps are gathered. -/
def fwdEvent (q : Nat) (m : PtpMessage) (s : ClockState) : ClockState :=
  forwardPass c a q m (forwardPass c a q m s)

/-- `tc_fwd_sync`: a one-step Sync is followed by a Follow_Up of its own. -/
def fwdSync (q : Nat) (m : PtpMessage) (s : ClockState) : ClockState :=
  let s := fwdEvent c a q m s
  if c.oneStep m then forwardPass c a q { m with type := .followUp } s else s

/-- The switch over the type of a message in `e2e_event`. The parsed copy is there unless it is to
be ignored. -/
def e2eProcess (p : Nat) (m : Stored) (dup : Bool) (s : ClockState) : FsmEvent × ClockState :=
  match m.msg.type with
  | .sync =>
    let s := fwdSync c a p m.msg s
    (.none, if dup then processSync c a p m s else s)
  | .delayReq => (.none, fwdEvent c a p m.msg s)
  | .followUp =>
    let s := forwardPass c a p m.msg s
    (.none, if dup then processFollowUp c a p m s else s)
  | .delayResp =>
    let s := forwardPass c a p m.msg s
    (.none, if dup then processDelayResp c p m s else s)
  | .announce =>
    let s := forwardPass c a p m.msg s
    if dup then decisionIf (processAnnounce c a p m s) else (.none, s)
  | .signaling | .management => (.none, forwardPass c a p m.msg s)
  | .pdelayReq | .pdelayResp | .pdelayRespFollowUp => (.none, s)

/-- The same in `p2p_event`. -/
def p2pProcess (p : Nat) (m : Stored) (dup : Bool) (s : ClockState) : FsmEvent × ClockState :=
  match m.msg.type with
  | .sync =>
    let s := fwdSync c a p m.msg s
    (.none, if dup then processSync c a p m s else s)
  | .pdelayReq => if dup then faultIf (processPdelayReq c a p m s) else (.none, s)
  | .pdelayResp => if dup then faultIf (processPdelayResp c a p m s) else (.none, s)
  | .followUp =>
    let s := forwardPass c a p m.msg s
    (.none, if dup then processFollowUp c a p m s else s)
  | .pdelayRespFollowUp => (.none, if dup then processPdelayRespFup c p m s else s)
  | .announce =>
    let s := forwardPass c a p m.msg s
    if dup then decisionIf (processAnnounce c a p m s) else (.none, s)
  | .signaling | .management => (.none, forwardPass c a p m.msg s)
  | .delayReq | .delayResp => (.none, s)

/-- A message arrives at a socket of a transparent clock. The copy is put before it is handled if
it is to be ignored. -/
def relayReceive (endToEnd : Bool) (p : Nat) (s : ClockState) : FsmEvent × ClockState :=
  match a.received with
  | .failed => (.faultDetected, s.scratch PtpMessage.blank)
  | .rejected => (.none, s.scratch PtpMessage.blank)
  | .message msg =>
    let (m, s) := s.obtain msg
    if msg.flags &&& unicast ≠ 0 then (.none, s.release m.cell) else
      let dup := !tcIgnore c p msg
      let s := if dup then s else s.release m.cell
      let (event, s) := if endToEnd then e2eProcess c a p m dup s else p2pProcess c a p m dup s
      (event, if dup then s.release m.cell else s)

/-! ## Events -/

/-- `port_renew_transport`: whether it fails. -/
def portRenewTransport (p : Nat) (s : ClockState) : Bool :=
  portIsEnabled (s.ports p).state && !a.renews

/-- The announce or Sync receipt timeout in `bc_event`. -/
def bcTimeout (p : Nat) (s : ClockState) : FsmEvent × ClockState :=
  let s := delayReqPrune a p (setTmo p .announceTimer (clearBest p s))
  if c.slaveOnly ∧ (s.ports p).delayMechanism ≠ .p2p ∧ portRenewTransport a p s then
    (.faultDetected, s)
  else (.announceReceiptTimeoutExpires, s)

/-- `bc_event`. -/
def bcEvent (p : Nat) (fd : Descriptor) (s : ClockState) : FsmEvent × ClockState :=
  match fd with
  | .announceTimer | .syncRxTimer => bcTimeout c a p s
  | .delayTimer => faultIf (portDelayRequest c a p (delayReqPrune a p (setTmo p .delayTimer s)))
  | .qualificationTimer => (.qualificationTimeoutExpires, s)
  | .mannoTimer => faultIf (portTxAnnounce c a p (setTmo p .mannoTimer s))
  | .syncTxTimer => faultIf (portTxSync c a p (setTmo p .syncTxTimer s))
  | .rtnl => rtnlEvent c a p s
  | .event | .general => bcReceive c a p s

/-- The announce or Sync receipt timeout of a transparent clock. -/
def tcTimeout (p : Nat) (s : ClockState) : FsmEvent × ClockState :=
  (.announceReceiptTimeoutExpires, setTmo p .announceTimer (clearBest p s))

/-- The delay timer in `e2e_event`. -/
def e2eDelayTimer (p : Nat) (s : ClockState) : FsmEvent × ClockState :=
  let s := delayReqPrune a p (setTmo p .delayTimer s)
  if !c.freeRunning && (s.ports p).state.tracks then faultIf (portDelayRequest c a p s)
  else (.none, s)

/-- `e2e_event`. -/
def e2eEvent (p : Nat) (fd : Descriptor) (s : ClockState) : FsmEvent × ClockState :=
  match fd with
  | .announceTimer | .syncRxTimer => tcTimeout p s
  | .delayTimer => e2eDelayTimer c a p s
  | .qualificationTimer => (.qualificationTimeoutExpires, s)
  | .mannoTimer | .syncTxTimer => (.none, s)
  | .rtnl => rtnlEvent c a p s
  | .event | .general => relayReceive c a true p s

/-- The delay timer in `p2p_event`, with `p2p_delay_request`. -/
def p2pDelayTimer (p : Nat) (s : ClockState) : FsmEvent × ClockState :=
  let s := setTmo p .delayTimer s
  if portIsEnabled (s.ports p).state then faultIf (portDelayRequest c a p s) else (.none, s)

/-- `p2p_event`. -/
def p2pEvent (p : Nat) (fd : Descriptor) (s : ClockState) : FsmEvent × ClockState :=
  match fd with
  | .announceTimer | .syncRxTimer => tcTimeout p s
  | .delayTimer => p2pDelayTimer c a p s
  | .qualificationTimer => (.qualificationTimeoutExpires, s)
  | .mannoTimer | .syncTxTimer => (.none, s)
  | .rtnl => rtnlEvent c a p s
  | .event | .general => relayReceive c a false p s

/-- `port_event`. -/
def portEvent (p : Nat) (fd : Descriptor) (s : ClockState) : FsmEvent × ClockState :=
  match c.type with
  | .ordinary | .boundary => bcEvent c a p fd s
  | .e2e => e2eEvent c a p fd s
  | .p2p => p2pEvent c a p fd s

/-! ## The state decision -/

/-- `clock_default_ds`. -/
def clockDefaultDs (s : ClockState) : Dataset where
  priority1 := s.dds.priority1
  identity := c.clockIdentity
  quality := s.dds.clockQuality
  priority2 := s.dds.priority2
  localPriority := c.localPriority
  stepsRemoved := 0
  sender := ⟨c.clockIdentity, 0⟩
  receiver := ⟨c.clockIdentity, 0⟩

/-- `bmc_state_decision`. -/
def bmcStateDecision (r : Nat) (s : ClockState) : PortState :=
  let clockDs := some (clockDefaultDs c s)
  let clockBest := s.best.map Best.dataset
  let portBest := (s.ports r).bestForeign.map ForeignClock.dataset
  let ps := (s.ports r).state
  if portBest.isNone ∧ ps = .listening then ps
  else if s.dds.clockQuality.clockClass ≤ 127 then
    if c.dscmp clockDs portBest > 0 then .grandMaster else .passive
  else if c.dscmp clockDs clockBest > 0 then .grandMaster
  else if s.best.map Best.port = some r then .slave
  else if c.dscmp clockBest portBest = aBetterTopo then .passive
  else .master

/-- `clock_update_grandmaster`. -/
def clockUpdateGrandmaster (s : ClockState) : ClockState :=
  let parent : Parent :=
    { parentPortIdentity := ⟨c.clockIdentity, 0⟩
      grandmasterIdentity := c.clockIdentity
      grandmasterClockQuality := s.dds.clockQuality
      grandmasterPriority1 := s.dds.priority1
      grandmasterPriority2 := s.dds.priority2 }
  let tds : TimeProperties := ⟨s.utcOffset, s.timeFlags, s.timeSource⟩
  { s with stepsRemoved := 0, parent := parent, path := [], tds := tds }

/-- What `clock_update_slave` takes over from the best foreign master and its first announce. -/
def follow (best : Best) (msg : PtpMessage) (s : ClockState) : ClockState :=
  let parent : Parent :=
    { parentPortIdentity := best.dataset.sender
      grandmasterIdentity := msg.announce.grandmasterIdentity
      grandmasterClockQuality := msg.announce.grandmasterClockQuality
      grandmasterPriority1 := msg.announce.grandmasterPriority1
      grandmasterPriority2 := msg.announce.grandmasterPriority2 }
  let tds := timePropertiesOf msg
  let utcOffset := if utcTrusted tds.flags ∨ tds.currentUtcOffset > s.utcOffset then
      tds.currentUtcOffset
    else s.utcOffset
  let stepsRemoved := 1 + best.dataset.stepsRemoved
  { s with stepsRemoved := stepsRemoved, parent := parent, tds := tds, utcOffset := utcOffset }

/-- The first announce of the best foreign master of the clock. -/
def firstOfBest (best : Best) (s : ClockState) : Option Stored :=
  ((s.ports best.port).foreignMasters.find? fun fc => fc.id = best.id).bind fun fc =>
    fc.messages.head?

/-- `clock_update_slave`. -/
def clockUpdateSlave (s : ClockState) : ClockState :=
  match s.best with
  | none => s
  | some best =>
    let first := firstOfBest best s
    let s := s.note (.took best.port first)
    match first with
    | none => s
    | some m => follow best m.msg s

/-- What the newest announces of the best foreign masters say is noted for every port. -/
def noteUsed (s : ClockState) : ClockState :=
  let first (p : Nat) : Option Stored := (s.ports p).bestForeign.bind fun fc => fc.messages.head?
  { s with used := fun p => (first p).map fun m => m.msg.announce, reported := fun _ => false }

/-- The middle part of `handle_state_decision_event`: whether the best is a new one, and the
state with the best taken over. -/
def adoptBest (best : Option Best) (s : ClockState) : Bool × ClockState :=
  let bestId := match best with
    | none => c.clockIdentity
    | some best => best.dataset.identity
  let freshBest := bestId ≠ s.bestId
  let tsproc := tsprocReset true s.tsproc
  let tsproc := if c.initialDelay ≠ 0 then tsprocSetDelay tsproc else tsproc
  let s := if freshBest then { s with tsproc := tsproc } else s
  (freshBest, { s with best := best, bestId := bestId })

/-- The body of the second loop of `handle_state_decision_event`. -/
def recommend (freshBest : Bool) (s : ClockState) (p : Nat) : ClockState :=
  match bmcStateDecision c p s with
  | .listening => portDispatch c a p .none freshBest s
  | .grandMaster => portDispatch c a p .rsGrandMaster freshBest (clockUpdateGrandmaster c s)
  | .master => portDispatch c a p .rsMaster freshBest s
  | .passive => portDispatch c a p .rsPassive freshBest s
  | .slave => portDispatch c a p .rsSlave freshBest (clockUpdateSlave s)
  | _ => portDispatch c a p .faultDetected freshBest s

/-- `handle_state_decision_event`. -/
def handleStateDecisionEvent (s : ClockState) : ClockState :=
  let (best, s) := electBest c a c.ports s
  let (freshBest, s) := adoptBest c best (noteUsed s)
  c.ports.foldl (recommend c a freshBest) s

end Events

/-! ## Polls -/

/-- A descriptor that is ready, with the answers while it is handled. -/
structure ReadyDescriptor where
  fd : Descriptor
  answers : Answers

/-- What a call of `poll` finds. -/
structure Poll where
  /-- The descriptors of the ports that are ready, in order. -/
  ready : Nat → List ReadyDescriptor
  /-- The fault timers that have expired. -/
  faultTimer : Nat → Option Answers
  /-- The answers while the state decision is made. -/
  decision : Answers

/-- The steps of a poll. -/
inductive PollStep where
  /-- A port comes to its turn. -/
  | enter (p : Nat)
  /-- A descriptor of a network port is handled. -/
  | descriptor (p : Nat) (fd : Descriptor) (answers : Answers)
  /-- The fault timer of a port has expired. -/
  | faultTimer (p : Nat) (answers : Answers)
  /-- A descriptor of the UDS port is handled. -/
  | uds (fd : Descriptor) (answers : Answers)
  /-- The state decision, if there is reason for one. -/
  | decide (answers : Answers)

/-- The state between two steps of a poll. -/
structure PollState where
  clock : ClockState
  /-- The descriptors left of the port are passed over. -/
  faulted : Bool := false

section Polls

variable (c : Clock)

/-- `clock_fault_timeout` with the flag set. -/
def armFault (p : Nat) (s : ClockState) : ClockState :=
  let arms := ((c.setup p).faultInterval (s.ports p).lastFaultType).arms
  s.withPort p fun port => { port with faultArmed := arms }

/-- `clock_fault_timeout` with the flag not set. -/
def disarmFault (p : Nat) (s : ClockState) : ClockState :=
  s.withPort p fun port => { port with faultArmed := false }

/-- The body of the loop over the descriptors of a port, as far as the dispatch. -/
def handleDescriptor (a : Answers) (p : Nat) (fd : Descriptor) (s : ClockState) : ClockState :=
  let (event, s) := portEvent c a p fd s
  let s := if event = .stateDecisionEvent ∨ event = .announceReceiptTimeoutExpires then
      { s with sde := true }
    else s
  portDispatch c a p event false s

/-- The expiry of a fault timer. -/
def handleFaultTimer (a : Answers) (p : Nat) (s : ClockState) : ClockState :=
  let s := disarmFault p s
  if (s.ports p).linkStatus.up then portDispatch c a p .faultCleared false s else s

/-- A descriptor of the UDS port. -/
def handleUds (a : Answers) (fd : Descriptor) (s : ClockState) : ClockState :=
  let (event, s) := portEvent c a 0 fd s
  if event = .stateDecisionEvent then { s with sde := true } else s

/-- The state decision at the end of a poll. -/
def handleDecision (a : Answers) (s : ClockState) : ClockState :=
  if s.sde then { handleStateDecisionEvent c a s with sde := false } else s

/-- One step of a poll. -/
def pollStep (s : PollState) : PollStep → PollState
  | .enter _ => { s with faulted := false }
  | .descriptor p fd a =>
    if s.faulted then s else
      let clock := handleDescriptor c a p fd s.clock
      if (clock.ports p).state = .faulty then ⟨armFault c p clock, true⟩ else ⟨clock, false⟩
  | .faultTimer p a => { s with clock := handleFaultTimer c a p s.clock }
  | .uds fd a => { s with clock := handleUds c a fd s.clock }
  | .decide a => { s with clock := handleDecision c a s.clock }

/-- The steps of one port in a poll. -/
def Poll.portSteps (poll : Poll) (p : Nat) : List PollStep :=
  .enter p :: (poll.ready p).map (fun ready => .descriptor p ready.fd ready.answers) ++
    (poll.faultTimer p).toList.map (.faultTimer p)

/-- The steps of a poll in their order. -/
def Poll.steps (poll : Poll) : List PollStep :=
  c.ports.flatMap poll.portSteps ++
    (poll.ready 0).map (fun ready => .uds ready.fd ready.answers) ++ [.decide poll.decision]

/-- `clock_poll`. -/
def clockPoll (s : PollState) (poll : Poll) : PollState := (poll.steps c).foldl (pollStep c) s

/-! ## Starting -/

/-- A port as `port_open` leaves it. -/
def portOpen (p : Nat) : Port :=
  { delayMechanism := (c.setup p).delayMechanism
    running := { logMinDelayReqInterval := (c.setup p).logMinDelayReqInterval } }

/-- The state before the ports are initialised. -/
def clockOpen (dds : DefaultDataSet) (utcOffset : Int) (timeSource : UInt8) (realtime : Bool) :
    ClockState :=
  let zero : ClockIdentity := Vector.replicate 8 0
  clockUpdateGrandmaster c
    { msgs := ⟨fun _ => PtpMessage.blank, fun _ => 0, [], 0, false⟩
      ports := portOpen c
      bestId := zero
      dds := dds
      parent := ⟨⟨zero, 0⟩, zero, ⟨0, 0, 0⟩, 0, 0⟩
      utcOffset := utcOffset
      timeFlags := if c.utcTimescale then 0 else ptpTimescale
      timeSource := timeSource
      realtime := realtime }

/-- The end of `clock_create`. -/
def clockStart (a : Answers) (s : ClockState) : ClockState :=
  (c.ports ++ [0]).foldl (fun s p => portDispatch c a p .initializeEvent false s) s

end Polls

end LinuxPtp
