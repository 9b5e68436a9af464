import LinuxPtp.ClockSync

/-!
# What a port does with a message or a timer

The handlers of `port.c`, and what they build and send. A handler that can fail says so, which
makes a fault of it. A message is built, sent and put with no trace in the state but for the
counters, so that its content is only written down where it is kept or sent on to others.
-/

namespace LinuxPtp

open RefPool

section Handlers

variable (c : Clock) (a : Answers)

/-! ## Messages that a port sends -/

/-- A message is sent by a port: whether that succeeds. -/
def transmit (p : Nat) (s : ClockState) : Bool × ClockState := ((a.sends p s.asked).isSome, s.ask)

/-- `port_capable`. -/
def portCapable (s : ClockState) : Bool × ClockState := (a.capable s.asked, s.ask)

/-- `port_sync_incapable`. -/
def portSyncIncapable (p : Nat) (s : ClockState) : Bool :=
  (c.setup p).followUpInfo && !c.gmCapable &&
    s.parent.parentPortIdentity.clockIdentity = c.clockIdentity

/-- `PATH_TRACE_MAX`. -/
def longestPath : Nat := pathTraceMax

/-- `path_trace_append`: the TLV, if it fits. -/
def pathTraceAppend (s : ClockState) : Option PathTrace :=
  if 1 + s.path.length > longestPath then none else some ⟨.pathTrace, s.path ++ [c.clockIdentity]⟩

/-- The Announce that `port_tx_announce` sends. -/
def announceOf (p : Nat) (s : ClockState) : PtpMessage :=
  let trace := if (c.setup p).pathTraceEnabled then pathTraceAppend c s else none
  { c.newMessage p .announce with
    timeFlags := s.tds.flags
    sequenceId := (s.ports p).running.announceSeqnum
    announce :=
      { currentUtcOffset := s.tds.currentUtcOffset
        grandmasterPriority1 := s.parent.grandmasterPriority1
        grandmasterClockQuality := s.parent.grandmasterClockQuality
        grandmasterPriority2 := s.parent.grandmasterPriority2
        grandmasterIdentity := s.parent.grandmasterIdentity
        stepsRemoved := s.stepsRemoved
        timeSource := s.tds.timeSource }
    tlvs := trace.toList
    suffix := trace.getD ⟨.other, []⟩ }

/-- `port_tx_announce`: whether it fails. -/
def portTxAnnounce (p : Nat) (s : ClockState) : Bool × ClockState :=
  let (capable, s) := portCapable a s
  if !capable then (false, s) else
    let (msg, s) := s.obtain (announceOf c p s)
    let s := s.withRunning p fun running =>
      { running with announceSeqnum := running.announceSeqnum + 1 }
    let (sent, s) := transmit a p s
    (!sent, s.release msg.cell)

/-- The Follow_Up of `port_tx_sync`: whether it fails. -/
def txFollowUp (p : Nat) (s : ClockState) : Bool × ClockState :=
  if (c.setup p).followUpInfo && !a.room then (true, s) else
    let (sent, s) := transmit a p s
    (!sent, s)

/-- `port_tx_sync`: whether it fails. -/
def portTxSync (p : Nat) (s : ClockState) : Bool × ClockState :=
  let (capable, s) := portCapable a s
  if !capable then (false, s)
  else if portSyncIncapable c p s then (false, s) else
    let (msg, s) := s.obtain (c.newMessage p .sync)
    let (fup, s) := s.obtain (c.newMessage p .followUp)
    let s := s.withRunning p fun running => { running with syncSeqnum := running.syncSeqnum + 1 }
    let oneStep := (c.setup p).timestamping = .oneStep ∨ (c.setup p).timestamping = .p2p1Step
    let (sent, s) := transmit a p s
    let (err, s) := if !sent then (true, s) else if oneStep then (false, s) else txFollowUp c a p s
    (err, (s.release msg.cell).release fup.cell)

/-! ## Synchronisation -/

/-- `port_synchronize` with time stamps from the messages of the supplied ports. -/
def portSynchronize (p : Nat) (ingressTs originTs correction1 correction2 : Int)
    (t1From t2From : PortIdentity) (s : ClockState) : ClockState :=
  let s := setTmo p .syncRxTimer s
  let t1c := originTs + (correctionToTmv correction1 + correctionToTmv correction2)
  let (state, s) := clockSynchronize c a p ingressTs t1c t1From t2From s
  match state with
  | .unlocked => portDispatch c a p .synchronizationFault false s
  | .jump =>
    let s := portDispatch c a p .synchronizationFault false s
    dropPeerDelay .req p (flushDelayReq p s)
  | .locked => portDispatch c a p .masterClockSelected false s

/-- `enum syfu_event`. -/
inductive SyfuEvent where
  | syncMismatch
  | syncMatch
  | fupMismatch
  | fupMatch
deriving DecidableEq

/-- A Sync or Follow_Up is kept until its partner arrives. -/
def keepLast (p : Nat) (kind : SyfuState) (m : Stored) (s : ClockState) : ClockState :=
  (s.get m.cell).withPort p fun port => { port with syfu := kind, lastSyncfup := some m }

/-- A pair is complete: `port_synchronize`, and the message that was kept is put. -/
def completePair (p : Nat) (sync fup : PtpMessage) (s : ClockState) : ClockState :=
  let s := s.note (.paired sync fup)
  let s := portSynchronize c a p sync.hwts fup.pdu sync.correction fup.correction
    fup.sourcePortIdentity sync.sourcePortIdentity s
  putLast p s

/-- `port_syfufsm`. -/
def portSyfufsm (p : Nat) (event : SyfuEvent) (m : Stored) (s : ClockState) : ClockState :=
  match (s.ports p).syfu, event with
  | .empty, .syncMismatch => keepLast p .haveSync m s
  | .empty, .fupMismatch => keepLast p .haveFup m s
  | .haveSync, .syncMismatch | .haveFup, .syncMismatch => keepLast p .haveSync m (putLast p s)
  | .haveSync, .fupMismatch | .haveFup, .fupMismatch => keepLast p .haveFup m (putLast p s)
  | .haveSync, .fupMatch =>
    match (s.ports p).lastSyncfup with
    | none => s
    | some syn => completePair c a p syn.msg m.msg s
  | .haveFup, .syncMatch =>
    match (s.ports p).lastSyncfup with
    | none => s
    | some fup => completePair c a p m.msg fup.msg s
  | .empty, .syncMatch | .empty, .fupMatch | .haveSync, .syncMatch | .haveFup, .fupMatch => s

/-- A port follows a master. -/
def PortState.tracks : PortState → Bool
  | .uncalibrated | .slave => true
  | _ => false

/-- The message in the slot has the sequence id of the one that comes in. -/
def sameSequence (port : Port) (m : PtpMessage) : Bool :=
  match port.lastSyncfup with
  | none => false
  | some last => last.msg.sequenceId = m.sequenceId

/-- `fup_sync_ok` for the Follow_Up in the slot. -/
def fupSyncOk (port : Port) (sync : PtpMessage) : Bool :=
  match port.lastSyncfup with
  | none => false
  | some fup => sync.sw ≤ fup.msg.sw

/-- `one_step`. -/
def Clock.oneStep (c : Clock) (m : PtpMessage) : Bool := !c.assumeTwoStep && m.flags &&& twoStep = 0

/-- `process_follow_up`. -/
def processFollowUp (p : Nat) (m : Stored) (s : ClockState) : ClockState :=
  if !(s.ports p).state.tracks then s
  else if s.parent.parentPortIdentity ≠ m.msg.sourcePortIdentity then s
  else if (c.setup p).followUpInfo && !m.msg.followUpInfo then s
  else if (s.ports p).syfu = .haveSync ∧ sameSequence (s.ports p) m.msg then
    portSyfufsm c a p .fupMatch m s
  else portSyfufsm c a p .fupMismatch m s

/-- The asymmetry of the port is added to the correction. -/
def asymmetric (p : Nat) (m : Stored) : Stored :=
  { m with msg := { m.msg with correction := m.msg.correction + (c.setup p).asymmetry } }

/-- `process_sync`. -/
def processSync (p : Nat) (m : Stored) (s : ClockState) : ClockState :=
  if !(s.ports p).state.tracks then s
  else if s.parent.parentPortIdentity ≠ m.msg.sourcePortIdentity then s else
    let s := s.withRunning p fun running =>
      { running with logSyncInterval := m.msg.logMessageInterval }
    let m := asymmetric c p m
    let s := s.amend m.cell m.msg
    if c.oneStep m.msg then
      flushLastSync p (portSynchronize c a p m.msg.hwts m.msg.pdu m.msg.correction 0
        m.msg.sourcePortIdentity m.msg.sourcePortIdentity s)
    else if (s.ports p).syfu = .haveFup ∧ fupSyncOk (s.ports p) m.msg ∧
        sameSequence (s.ports p) m.msg then
      portSyfufsm c a p .syncMatch m s
    else portSyfufsm c a p .syncMismatch m s

/-! ## The delay request mechanism -/

/-- `delay_req_current`. -/
def delayReqCurrent (m : PtpMessage) (now : Int) : Bool := now - m.host < 5 * 1000000000

/-- `delay_req_prune`. -/
def delayReqPrune (p : Nat) (s : ClockState) : ClockState :=
  ((s.ports p).delayReq.reverse.takeWhile fun m => !delayReqCurrent m.msg a.now).foldl
    (fun s m => dropDelayReq p m s) s

/-- A message that a handler allocated is kept by the port from now on. -/
def ClockState.handOver (cell : Nat) (s : ClockState) : ClockState :=
  { s with hands := s.hands.erase cell }

/-- Keep one of the peer delay messages. -/
def keepPeerDelay (slot : PeerSlot) (p : Nat) (m : Stored) (s : ClockState) : ClockState :=
  s.withPort p fun port =>
    { port with peerDelay := Function.update port.peerDelay slot (some m) }

/-- The sending of a request: the message with its transmit time stamp, unless that fails. -/
def sendRequest (p : Nat) (m : Stored) (s : ClockState) : Option Stored × ClockState :=
  match a.sends p s.asked with
  | none => (none, s.ask.release m.cell)
  | some stamp =>
    let m := { m with msg := { m.msg with hwts := stamp } }
    (some m, s.ask.amend m.cell m.msg)

/-- `port_pdelay_request`: whether it fails. -/
def portPdelayRequest (p : Nat) (s : ClockState) : Bool × ClockState :=
  let s := s.withRunning p fun running =>
    { running with
      multipleSeqPdrCount := if running.multiplePdrDetected then running.multipleSeqPdrCount else 0
      multiplePdrDetected := false
      delayreqSeqnum := running.delayreqSeqnum + 1 }
  let (m, s) := s.obtain { c.newMessage p .pdelayReq with
    correction := -(c.setup p).asymmetry
    sequenceId := (s.ports p).running.delayreqSeqnum - 1 }
  match sendRequest a p m s with
  | (none, s) => (true, s)
  | (some m, s) =>
    let s := dropPeerDelay .req p s
    (false, keepPeerDelay .req p m (s.handOver m.cell))

/-- The first announce of the best foreign master of a port is taken. -/
def takeFirst (p : Nat) (s : ClockState) : ClockState :=
  s.note (.took p ((s.ports p).bestForeign.bind fun fc => fc.messages.head?))

/-- `port_delay_request`: whether it fails. -/
def portDelayRequest (p : Nat) (s : ClockState) : Bool × ClockState :=
  let s := dropPeerDelay .fup p (dropPeerDelay .resp p s)
  if (s.ports p).delayMechanism = .p2p then portPdelayRequest c a p s else
    let s := s.withRunning p fun running =>
      { running with delayreqSeqnum := running.delayreqSeqnum + 1 }
    let (m, s) := s.obtain { c.newMessage p .delayReq with
      correction := -(c.setup p).asymmetry
      sequenceId := (s.ports p).running.delayreqSeqnum - 1
      flags := if (c.setup p).hybridE2e then unicast else 0
      host := a.now }
    let s := if (c.setup p).hybridE2e then takeFirst p s else s
    match sendRequest a p m s with
    | (none, s) => (true, s)
    | (some m, s) =>
      (false, (s.handOver m.cell).withPort p fun port =>
        { port with delayReq := m :: port.delayReq })

/-- `port_nsm_reply`. -/
def portNsmReply (p : Nat) (m : PtpMessage) : Bool :=
  (c.setup p).netSyncMonitor && (c.setup p).hybridE2e && m.flags &&& unicast ≠ 0 &&
    m.tlvs.any fun tlv => tlv.type = .ptpmonReq

/-- The part of `net_sync_resp_append` that reads the address of the parent. -/
def netSyncRespAppend (s : ClockState) : ClockState :=
  match s.best with
  | none => s
  | some best =>
    if s.parent.parentPortIdentity.clockIdentity = c.clockIdentity then s
    else if (s.ports best.port).best.isNone then s
    else takeFirst best.port s

/-- The Sync that follows the answer to a monitor, under the sequence id of the request. -/
def monitorSync (p : Nat) (m : PtpMessage) (s : ClockState) : Bool × ClockState :=
  let saved := (s.ports p).running.syncSeqnum
  let s := s.withRunning p fun running => { running with syncSeqnum := m.sequenceId }
  let (err, s) := portTxSync c a p s
  (err, s.withRunning p fun running => { running with syncSeqnum := saved })

/-- `process_delay_req`: whether it fails. -/
def processDelayReq (p : Nat) (m : Stored) (s : ClockState) : Bool × ClockState :=
  let nsm := portNsmReply c p m.msg
  if !nsm && (s.ports p).state ≠ .master && (s.ports p).state ≠ .grandMaster then (false, s)
  else if (s.ports p).delayMechanism = .p2p then (false, s) else
    let (msg, s) := s.obtain (c.newMessage p .delayResp)
    let s := if nsm then netSyncRespAppend c s else s
    if nsm && !a.room then (true, s.release msg.cell) else
      let (sent, s) := transmit a p s
      let (err, s) := if sent && nsm then monitorSync c a p m.msg s else (!sent, s)
      (err, s.release msg.cell)

/-- A new interval between delay requests. -/
def takeDelayInterval (p : Nat) (m : PtpMessage) (s : ClockState) : ClockState :=
  if (s.ports p).running.logMinDelayReqInterval = m.logMessageInterval then s
  else if m.flags &&& unicast ≠ 0 then s
  else if m.logMessageInterval < -10 ∨ m.logMessageInterval > 22 then s else
    let s := s.withRunning p fun running =>
      { running with logMinDelayReqInterval := m.logMessageInterval }
    setTmo p .delayTimer s

/-- `process_delay_resp`. -/
def processDelayResp (p : Nat) (m : Stored) (s : ClockState) : ClockState :=
  if !(s.ports p).state.tracks then s
  else if m.msg.requestingPortIdentity ≠ c.portIdentity p then s
  else if s.parent.parentPortIdentity ≠ m.msg.sourcePortIdentity then s else
    match (s.ports p).delayReq.find? fun req => req.msg.sequenceId = m.msg.sequenceId with
    | none => s
    | some req =>
      let t4c := m.msg.pdu - correctionToTmv m.msg.correction
      let s := clockPathDelay p req.msg.hwts t4c m.msg.sourcePortIdentity s
      takeDelayInterval p m.msg (dropDelayReq p req s)

/-! ## The peer delay mechanism -/

/-- The port that answers or asks is compared with the one known. -/
def meetPeer (p : Nat) (peer : PortIdentity) (s : ClockState) : ClockState :=
  match (s.ports p).running.peerPortid with
  | none => s.withRunning p fun running => { running with peerPortid := some peer }
  | some known =>
    if known = peer then s else
      let s := s.withRunning p fun running => { running with peerPortid := none }
      (portCapable a s).2

/-- A port on which a peer is detected goes over to the peer delay mechanism. -/
def detectPeer (p : Nat) (s : ClockState) : ClockState :=
  if (s.ports p).delayMechanism = .auto then
    setTmo p .delayTimer (s.withPort p fun port => { port with delayMechanism := .p2p })
  else s

/-- `process_pdelay_req`: whether it fails. -/
def processPdelayReq (p : Nat) (m : Stored) (s : ClockState) : Bool × ClockState :=
  if (s.ports p).delayMechanism = .e2e then (false, s) else
    let s := meetPeer a p m.msg.sourcePortIdentity (detectPeer p s)
    let (rsp, s) := s.obtain (c.newMessage p .pdelayResp)
    let (fup, s) := s.obtain (c.newMessage p .pdelayRespFollowUp)
    let (sent, s) := transmit a p s
    let (err, s) :=
      if !sent then (true, s)
      else if (c.setup p).timestamping = .p2p1Step then (false, s)
      else
        let (again, s) := transmit a p s
        (!again, s)
    (err, (s.release rsp.cell).release fup.cell)

/-- The time stamps of a complete peer delay measurement go to the time stamp processors. The
one of the port computes a delay if two of them are not zero. -/
def peerDelayCalc (p : Nat) (req rsp : PtpMessage) (t2 : Int) (s : ClockState) : ClockState :=
  if rsp.hwts = 0 ∨ req.hwts = 0 then s else
    let s := if (s.ports p).state.tracks then
        clockPeerDelay req.hwts t2 rsp.sourcePortIdentity s
      else s
    dropPeerDelay .req p s

/-- `port_peer_delay`. -/
def portPeerDelay (p : Nat) (s : ClockState) : ClockState :=
  match (s.ports p).peerDelay .req, (s.ports p).peerDelay .resp with
  | some req, some rsp =>
    if rsp.msg.requestingPortIdentity ≠ c.portIdentity p then s
    else if rsp.msg.sequenceId ≠ req.msg.sequenceId then s
    else if c.oneStep rsp.msg then peerDelayCalc p req.msg rsp.msg 0 s else
      match (s.ports p).peerDelay .fup with
      | none => s
      | some fup =>
        if fup.msg.requestingPortIdentity ≠ c.portIdentity p then s
        else if fup.msg.sequenceId ≠ rsp.msg.sequenceId then s
        else if fup.msg.sourcePortIdentity ≠ rsp.msg.sourcePortIdentity then s
        else peerDelayCalc p req.msg rsp.msg rsp.msg.pdu s
  | _, _ => s

/-- Another peer answered in the same interval. -/
def countPeers (p : Nat) (m : PtpMessage) (s : ClockState) : ClockState :=
  match (s.ports p).peerDelay .resp with
  | none => s
  | some resp =>
    if resp.msg.sourcePortIdentity = m.sourcePortIdentity then s
    else if (s.ports p).running.multiplePdrDetected then s
    else s.withRunning p fun running =>
      { running with
        multiplePdrDetected := true
        multipleSeqPdrCount := running.multipleSeqPdrCount + 1 }

/-- The answers of other peers have come too often. -/
def tooManyPeers (p : Nat) (m : PtpMessage) (s : ClockState) : Bool :=
  match (s.ports p).peerDelay .resp with
  | none => false
  | some resp => resp.msg.sourcePortIdentity ≠ m.sourcePortIdentity &&
      (s.ports p).running.multipleSeqPdrCount ≥ 3

/-- `process_pdelay_resp`: whether it fails. -/
def processPdelayResp (p : Nat) (m : Stored) (s : ClockState) : Bool × ClockState :=
  let s := countPeers p m.msg s
  if tooManyPeers p m.msg s then (true, withFaultType p .badPeerNetwork s)
  else if ((s.ports p).peerDelay .req).isNone then (true, s) else
    let s := meetPeer a p m.msg.sourcePortIdentity s
    let s := dropPeerDelay .resp p s
    let s := keepPeerDelay .resp p m (s.get m.cell)
    (false, portPeerDelay c p s)

/-- `process_pdelay_resp_fup`. -/
def processPdelayRespFup (p : Nat) (m : Stored) (s : ClockState) : ClockState :=
  if ((s.ports p).peerDelay .req).isNone then s else
    let s := dropPeerDelay .fup p s
    let s := keepPeerDelay .fup p m (s.get m.cell)
    portPeerDelay c p s

end Handlers

end LinuxPtp
