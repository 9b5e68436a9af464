import LinuxPtp.ForeignMasters

/-!
# Ports taking events

`port_dispatch` in its three forms, with what a port drops when it changes its state or is
disabled, and `port_link_status`. That forwarding has its own descriptors to flush is not
repeated here.
-/

namespace LinuxPtp

open RefPool

/-- A message of which nothing is filled in. -/
def PtpMessage.blank : PtpMessage :=
  let zero : ClockIdentity := Vector.replicate 8 0
  let nobody : PortIdentity := ⟨zero, 0⟩
  let nothing : PathTrace := ⟨.other, []⟩
  ⟨.sync, 0, 0, 0, 0, 0, nobody, 0, 0, ⟨0, 0, ⟨0, 0, 0⟩, 0, zero, 0, 0⟩, nobody, [], nothing, false,
    none, 0, 0, 0, 0⟩

/-- The common part of the messages that a port builds. -/
def Clock.newMessage (c : Clock) (p : Nat) (type : MsgType) : PtpMessage :=
  { PtpMessage.blank with
    type := type
    transportSpecific := (c.setup p).transportSpecific
    domainNumber := c.domainNumber
    sourcePortIdentity := c.portIdentity p }

/-! ## What is dropped -/

/-- `msg_put` of the last Sync or Follow_Up, the slot being empty from then on. -/
def putLast (p : Nat) (s : ClockState) : ClockState :=
  let s := match (s.ports p).lastSyncfup with
    | none => s
    | some m => s.put m.cell
  s.withPort p fun port => { port with syfu := .empty }

/-- `flush_last_sync`. -/
def flushLastSync (p : Nat) (s : ClockState) : ClockState :=
  if (s.ports p).syfu ≠ .empty then putLast p s else s

/-- Remove the first outstanding delay request and put it. -/
def dropDelayReq (p : Nat) (m : Stored) (s : ClockState) : ClockState :=
  (s.put m.cell).withPort p fun port => { port with delayReq := port.delayReq.erase m }

/-- `flush_delay_req`. -/
def flushDelayReq (p : Nat) (s : ClockState) : ClockState :=
  (s.ports p).delayReq.foldl (fun s m => dropDelayReq p m s) s

/-- Put one of the peer delay messages, if there is one. -/
def dropPeerDelay (slot : PeerSlot) (p : Nat) (s : ClockState) : ClockState :=
  match (s.ports p).peerDelay slot with
  | none => s
  | some m => (s.put m.cell).withPort p fun port =>
      { port with peerDelay := Function.update port.peerDelay slot none }

/-- `flush_peer_delay`. -/
def flushPeerDelay (p : Nat) (s : ClockState) : ClockState :=
  dropPeerDelay .fup p (dropPeerDelay .resp p (dropPeerDelay .req p s))

/-- `port_disable`. -/
def portDisable (p : Nat) (s : ClockState) : ClockState :=
  let s := flushPeerDelay p (flushDelayReq p (flushLastSync p s))
  let s := s.withPort p fun port => { port with best := none }
  let s := freeForeignMasters p s
  s.withRunning p fun running => { running with timers := fun _ => false }

section Dispatch

variable (c : Clock) (a : Answers)

/-- `port_initialize`, with or without success. -/
def portInitialize (starts : Bool) (p : Nat) (s : ClockState) : ClockState :=
  let s := s.withPort p fun port => { port with lastFaultType := .unspecified }
  s.withRunning p fun running =>
    { running with
      timers := Function.update (fun _ => false) .announceTimer starts
      multipleSeqPdrCount := 0
      multiplePdrDetected := false
      logMinDelayReqInterval := (c.setup p).logMinDelayReqInterval
      peerPortid := if starts then none else running.peerPortid }

/-- `state_machine` of every port. -/
def Clock.machine (c : Clock) : PortState → FsmEvent → Bool → PortState :=
  if c.slaveOnly then ptpSlaveFsm else ptpFsm

/-- `port_state_update`: whether the state changed. The notification that follows a change
is a message of its own. -/
def portUpdate (p : Nat) (event : FsmEvent) (mdiff : Bool) (s : ClockState) : Bool × ClockState :=
  let port := s.ports p
  let asap := clearFaultAsap ((c.setup p).faultInterval port.lastFaultType)
  let starts := a.starts p s.asked
  let update := portStateUpdate c.machine asap starts port.state event mdiff
  let s := s.ask
  let s := if update.disabled then portDisable p s else s
  let s := if update.initialized then portInitialize c starts p s else s
  if update.next = port.state then (false, s) else
    let s := s.withPort p fun port => { port with state := update.next }
    (true, s.scratch (c.newMessage p .management))

/-- The timers that every transition clears but the delay timer. -/
def clrTimers (p : Nat) (s : ClockState) : ClockState :=
  [Descriptor.announceTimer, .syncRxTimer, .qualificationTimer, .mannoTimer, .syncTxTimer].foldl
    (fun s fd => clrTmo p fd s) s

/-- `port_e2e_transition`. -/
def portE2eTransition (p : Nat) (next : PortState) (s : ClockState) : ClockState :=
  let s := clrTmo p .delayTimer (clrTimers p s)
  match next with
  | .initializing => s
  | .faulty | .disabled => portDisable p s
  | .listening | .passive => setTmo p .announceTimer s
  | .preMaster => setTmo p .qualificationTimer s
  | .master | .grandMaster => setTmo p .syncTxTimer (setTmo p .mannoTimer s)
  | .uncalibrated =>
    let s := flushDelayReq p (flushLastSync p s)
    setTmo p .delayTimer (setTmo p .announceTimer s)
  | .slave => setTmo p .delayTimer (setTmo p .announceTimer s)

/-- `port_p2p_transition`. -/
def portP2pTransition (p : Nat) (next : PortState) (s : ClockState) : ClockState :=
  let s := clrTimers p s
  match next with
  | .initializing => s
  | .faulty | .disabled => portDisable p s
  | .listening => setTmo p .delayTimer (setTmo p .announceTimer s)
  | .preMaster => setTmo p .qualificationTimer s
  | .master | .grandMaster => setTmo p .syncTxTimer (setTmo p .mannoTimer s)
  | .passive | .slave => setTmo p .announceTimer s
  | .uncalibrated => setTmo p .announceTimer (flushPeerDelay p (flushLastSync p s))

/-- The side effects of a transition in `e2e_dispatch` and `p2p_dispatch`, of which only the
former drops messages when a port becomes UNCALIBRATED. -/
def tcTransition (flush : Bool) (p : Nat) (next : PortState) (s : ClockState) : ClockState :=
  let s := clrTimers p s
  match next with
  | .initializing | .master | .grandMaster => s
  | .faulty | .disabled => portDisable p s
  | .listening => setTmo p .delayTimer (setTmo p .announceTimer s)
  | .preMaster => setTmo p .qualificationTimer s
  | .passive | .slave => setTmo p .announceTimer s
  | .uncalibrated =>
    let s := if flush then flushDelayReq p (flushLastSync p s) else s
    setTmo p .announceTimer s

/-- What `bc_dispatch` does up to the transition. -/
def bcTransition (p : Nat) (event : FsmEvent) (mdiff : Bool) (s : ClockState) : Bool × ClockState :=
  let (changed, s) := portUpdate c a p event mdiff s
  let next := (s.ports p).state
  if !changed then (false, s)
  else if (s.ports p).delayMechanism = .p2p then (true, portP2pTransition p next s)
  else (true, portE2eTransition p next s)

/-- `clock_switch_phc`: whether it succeeds. -/
def clockSwitchPhc (p : Nat) (s : ClockState) : Bool × ClockState :=
  if a.switches p s.asked then (true, { s.ask with servoState := .unlocked, realtime := false })
  else (false, s.ask)

/-- A fault is noted for the next one to be detected. -/
def withFaultType (p : Nat) (type : FaultType) (s : ClockState) : ClockState :=
  s.withPort p fun port => { port with lastFaultType := type }

/-- `bc_dispatch`. A port that faults when the physical clock is switched does not come back to
UNCALIBRATED, and nothing is switched again. -/
def bcDispatch (p : Nat) (event : FsmEvent) (mdiff : Bool) (s : ClockState) : ClockState :=
  let (changed, s) := bcTransition c a p event mdiff s
  if changed && (c.setup p).jbod && (s.ports p).state = .uncalibrated then
    let (switched, s) := clockSwitchPhc a p s
    if switched then s else
      (bcTransition c a p .faultDetected false (withFaultType p .switchPhc s)).2
  else s

/-- `e2e_dispatch` and `p2p_dispatch`. -/
def tcDispatch (flush : Bool) (p : Nat) (event : FsmEvent) (mdiff : Bool) (s : ClockState) :
    ClockState :=
  let (changed, s) := portUpdate c a p event mdiff s
  if !changed || p = 0 then s else tcTransition flush p (s.ports p).state s

/-- `port_dispatch`. -/
def portDispatch (p : Nat) (event : FsmEvent) (mdiff : Bool) (s : ClockState) : ClockState :=
  match c.type with
  | .ordinary | .boundary => bcDispatch c a p event mdiff s
  | .e2e => tcDispatch c a true p event mdiff s
  | .p2p => tcDispatch c a false p event mdiff s

/-! ## The link -/

/-- `port_link_status`. -/
def portLinkStatus (p : Nat) (s : ClockState) (news : LinkNews) : ClockState :=
  let status := (s.ports p).linkStatus
  let status : LinkStatus :=
    { up := news.up, stateChanged := status.up ≠ news.up, tsLabelChanged := news.tsLabelChanged }
  let check := status.up && (status.stateChanged || status.tsLabelChanged)
  let status : LinkStatus :=
    if check && news.clock = .unsupported then { up := false, stateChanged := true } else status
  let s := s.withPort p fun port => { port with linkStatus := status }
  let finish (s : ClockState) : ClockState := if status.up then s else { s with sde := true }
  if check && news.clock = .switched then
    let (switched, s) := clockSwitchPhc a p s
    if switched then finish s else
      portDispatch c a p .faultDetected false (withFaultType p .switchPhc s)
  else finish s

/-- `rtnl_link_status`, and the event that follows. -/
def rtnlEvent (p : Nat) (s : ClockState) : FsmEvent × ClockState :=
  let s := a.links.foldl (portLinkStatus c a p) s
  let status := (s.ports p).linkStatus
  let event : FsmEvent :=
    if status.up ∧ status.stateChanged ∧ !status.tsLabelChanged then .faultCleared
    else if !status.up ∧ status.stateChanged ∧ !status.tsLabelChanged ∨ status.tsLabelChanged then
      .faultDetected
    else .none
  (event, s)

end Dispatch

end LinuxPtp
