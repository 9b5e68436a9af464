import LinuxPtp.Fsm
import LinuxPtp.MsgCodec
import LinuxPtp.RefPool

/-!
# Transparent clocks

`tc.c`, and the parts of `e2e_tc.c` and `p2p_tc.c` that decide what is forwarded.
Messages stay in network order. A Sync waits at each egress port for its
Follow_Up, or the Follow_Up for its Sync, and a Delay_Req for its Delay_Resp, in
a descriptor that holds a reference to the message.

What the environment contributes is supplied: the results of sending, transmit
time stamps, and what else happens to the states and peer delays of the ports.
The copy that the local clock handles is left out, and memory is taken to be
sufficient.
-/

namespace LinuxPtp

open Octets RefPool

/-- What forwarding uses of a `struct ptp_message` in network order. -/
structure TcMessage where
  data : Storage
  /-- The number of octets received or built; the code keeps no such number. -/
  held : Nat
  /-- The reception it came in by or was built in; the code keeps no such number. -/
  serial : Nat
  /-- `ts.host`, in nanoseconds. -/
  host : Int
  /-- `hwts.ts`, in nanoseconds. -/
  hwts : Int

/-- The content of a message fresh from `msg_allocate`. -/
def TcMessage.blank : TcMessage := ⟨fun _ => 0, 0, 0, 0, 0⟩

/-- Set the correction in the header. -/
def TcMessage.withCorrection (number : Nat) (msg : TcMessage) : TcMessage :=
  { msg with data := store .big PtpHeader.correction number msg.data }

/-- Note the time of handling. -/
def TcMessage.setHost (now : Int) (msg : TcMessage) : TcMessage := { msg with host := now }

def TcMessage.setHwts (stamp : Int) (msg : TcMessage) : TcMessage := { msg with hwts := stamp }

/-- One more in `stepsRemoved` of an Announce. -/
def TcMessage.addStep (msg : TcMessage) : TcMessage :=
  let steps := load .big AnnounceMsg.stepsRemoved msg.data
  { msg with data := store .big AnnounceMsg.stepsRemoved (1 + steps) msg.data }

/-- A `struct tc_txd` with its address. -/
structure TcTxd where
  id : Nat
  msg : Nat
  residence : Int
  ingressPort : Nat
deriving DecidableEq, Repr

/-- What forwarding uses of a `struct port`. -/
structure TcPort where
  state : PortState
  transmitted : List TcTxd := []
  peerDelay : Int := 0

/-- What does not change while the clock runs. -/
structure TcClock where
  order : ByteOrder
  /-- End-to-end, otherwise peer-to-peer. -/
  endToEnd : Bool
  /-- The network ports are numbered from one on, in the order of the list. -/
  nports : Nat
  domainNumber : UInt8
  assumeTwoStep : Bool
  slaveOnly : Bool
  tcSpanningTree : Nat → Bool
  asymmetry : Nat → Int
  txTimestampOffset : Nat → Int
  /-- The residence time scaled by the rate ratio of the clock. -/
  scaled : Int → Int

/-- The ports from `clock_first_port` on. -/
def TcClock.ports (c : TcClock) : List Nat := List.range' 1 c.nports

/-- `state_machine` of every port. -/
def TcClock.machine (c : TcClock) : PortState → FsmEvent → Bool → PortState :=
  if c.slaveOnly then ptpSlaveFsm else ptpFsm

/-- What is handed to the transports. -/
inductive TcOutput where
  /-- `transport_send` of a message with the supplied number and size. -/
  | send (port serial held : Nat) (octets : Storage)
  /-- The same for a message that completes a pair, with the number of the event
  message whose residence time it carries. -/
  | complete (port serial event held : Nat) (octets : Storage)
  /-- The length that `transport_txts` passes to `sk_receive`. -/
  | fetch (port : Nat) (length : Nat)

/-- The size of the packet buffer in `transport_txts`. -/
def txtsPacketSize : Nat := 1600

/-- The state of a transparent clock. -/
structure TcState where
  msgs : Pool TcMessage
  /-- `tc_pool`. -/
  tcPool : List Nat := []
  /-- Descriptors from this one on were never allocated. -/
  nextTxd : Nat := 0
  ports : Nat → TcPort
  outputs : List TcOutput := []
  /-- The number of receptions so far. -/
  received : Nat := 0
  /-- A descriptor was removed from a queue that did not hold it. -/
  derailed : Bool := false

/-- The answers of the environment while a message is handled, by port. -/
structure TcOracle where
  now : Int
  /-- Sending the message itself succeeds. -/
  forwards : Nat → Bool
  /-- The transmit time stamp, if it can be fetched. -/
  stamps : Nat → Option Int
  /-- Sending what completes a pair succeeds. -/
  completes : Nat → Bool
  /-- A fault is to be cleared as soon as possible. -/
  asap : Nat → Bool
  /-- `port_initialize` succeeds. -/
  starts : Nat → Bool

/-- The three fates of a pair. -/
inductive TcMatch where
  | mismatch
  | syncFup
  | fupSync
  | delayReqResp
deriving DecidableEq, Repr

namespace TcState

variable (s : TcState)

def withPort (p : Nat) (change : TcPort → TcPort) : TcState :=
  { s with ports := Function.update s.ports p (change (s.ports p)) }

def message (cell : Nat) : TcMessage := s.msgs.content cell

def withMessage (cell : Nat) (change : TcMessage → TcMessage) : TcState :=
  { s with msgs := s.msgs.modify cell change }

def output (out : TcOutput) : TcState := { s with outputs := s.outputs ++ [out] }

/-- `transport_send` of a message. -/
def send (p cell : Nat) : TcState :=
  s.output (.send p (s.message cell).serial (s.message cell).held (s.message cell).data)

end TcState

/-! ## Descriptors -/

/-- `tc_allocate`: the address of the descriptor. -/
def tcAllocate (s : TcState) : Nat × TcState :=
  match s.tcPool with
  | id :: rest => (id, { s with tcPool := rest })
  | [] => (s.nextTxd, { s with nextTxd := s.nextTxd + 1 })

/-- `TAILQ_REMOVE` from the queue of a port. -/
def tcRemove (p : Nat) (txd : TcTxd) (s : TcState) : TcState :=
  { s.withPort p fun port => { port with transmitted := port.transmitted.erase txd } with
    derailed := s.derailed || decide (txd ∉ (s.ports p).transmitted) }

/-- `msg_put` of the message of a descriptor, and `tc_recycle`. -/
def tcRecycle (txd : TcTxd) (s : TcState) : TcState :=
  { s with msgs := s.msgs.put txd.msg, tcPool := txd.id :: s.tcPool }

/-- Remove, put and recycle. -/
def tcDrop (p : Nat) (s : TcState) (txd : TcTxd) : TcState := tcRecycle txd (tcRemove p txd s)

/-- `tc_flush`. -/
def tcFlush (p : Nat) (s : TcState) : TcState :=
  (s.ports p).transmitted.foldl (tcDrop p) s

/-- `tc_current`: the message came in less than a second ago. -/
def tcCurrent (s : TcState) (now : Int) (txd : TcTxd) : Bool :=
  now - (s.message txd.msg).host < 1000000000

/-- `tc_prune`. -/
def tcPrune (p : Nat) (now : Int) (s : TcState) : TcState :=
  ((s.ports p).transmitted.takeWhile fun txd => !tcCurrent s now txd).foldl (tcDrop p) s

/-- A message waits at an egress port. -/
def tcStash (q p cell : Nat) (residence : Int) (s : TcState) : TcState :=
  let (id, s) := tcAllocate s
  let s := { s with msgs := s.msgs.get cell }
  s.withPort p fun port => { port with
    transmitted := port.transmitted ++ [⟨id, cell, residence, q⟩] }

section Forwarding

variable (c : TcClock) (o : TcOracle)

/-- `port_dispatch` with `EV_FAULT_DETECTED`. -/
def tcFault (p : Nat) (s : TcState) : TcState :=
  let state := (s.ports p).state
  let update := portStateUpdate c.machine (o.asap p) (o.starts p) state .faultDetected false
  let s := if update.disabled then tcFlush p s else s
  if update.next = state then s else
    let s := s.withPort p fun port => { port with state := update.next }
    if update.next = .faulty ∨ update.next = .disabled then tcFlush p s else s

/-- `tc_blocked`. -/
def tcBlocked (s : TcState) (q p : Nat) (data : Storage) : Bool :=
  if q = p then true
  else if p = 0 then true
  else if !c.tcSpanningTree q then false
  else if data PtpHeader.domainNumber ≠ c.domainNumber then false
  else
    let request := msgType data = some .delayReq
    let ingress : Bool := match (s.ports q).state with
      | .initializing | .faulty | .disabled | .listening | .preMaster | .passive => true
      | .master | .grandMaster => !request
      | .uncalibrated | .slave => false
    let egress : Bool := match (s.ports p).state with
      | .initializing | .faulty | .disabled | .listening | .preMaster | .passive => true
      | .uncalibrated | .slave => !request
      | .master | .grandMaster => request
    ingress || egress

/-! ## Pairs -/

/-- The octets of a port identity. -/
def portIdentity (offset : Nat) (data : Storage) : List UInt8 :=
  (List.range 10).map fun index => data (offset + index)

/-- `tc_match_delay`. -/
def tcMatchDelay (ingressPort : Nat) (resp req : Storage) (txd : TcTxd) : TcMatch :=
  if ingressPort ≠ txd.ingressPort then .mismatch
  else if load c.order PtpHeader.sequenceId req ≠ load c.order PtpHeader.sequenceId resp then
    .mismatch
  else if portIdentity PtpHeader.sourcePortIdentity req ≠
      portIdentity DelayRespMsg.requestingPortIdentity resp then .mismatch
  else if msgType req = some .delayReq ∧ msgType resp = some .delayResp then .delayReqResp
  else .mismatch

/-- `tc_match_syfup`. -/
def tcMatchSyfup (ingressPort : Nat) (msg other : Storage) (txd : TcTxd) : TcMatch :=
  if ingressPort ≠ txd.ingressPort then .mismatch
  else if load c.order PtpHeader.sequenceId msg ≠ load c.order PtpHeader.sequenceId other then
    .mismatch
  else if portIdentity PtpHeader.sourcePortIdentity msg ≠
      portIdentity PtpHeader.sourcePortIdentity other then .mismatch
  else if msgType other = some .sync ∧ msgType msg = some .followUp then .syncFup
  else if msgType other = some .followUp ∧ msgType msg = some .sync then .fupSync
  else .mismatch

/-- `tmv_to_TimeInterval`. -/
def timeInterval (nanoseconds : Int) : Int := nanoseconds * 2 ^ 16

/-- `tc_complete_request`. -/
def tcCompleteRequest (q p cell : Nat) (residence : Int) (s : TcState) : TcState :=
  tcStash q p cell residence s

/-- The sending of what completes a pair: the correction is changed in place, modulo
2^64, and restored for the next egress port. -/
def tcTransmit (p cell event : Nat) (interval : Int) (s : TcState) : TcState :=
  let c1 := load .big PtpHeader.correction (s.message cell).data
  let c2 := ((c1 + interval) % 2 ^ 64).toNat
  let s := s.withMessage cell (·.withCorrection c2)
  let fup := s.message cell
  let s := s.output (.complete p fup.serial (s.message event).serial fup.held fup.data)
  let s := if o.completes p then s else tcFault c o p s
  s.withMessage cell (·.withCorrection c1)

/-- `tc_complete_response`. -/
def tcCompleteResponse (q p cell : Nat) (s : TcState) : TcState :=
  match (s.ports q).transmitted.find? fun txd =>
    tcMatchDelay c p (s.message cell).data (s.message txd.msg).data txd = .delayReqResp with
  | none => s
  | some txd => tcDrop q (tcTransmit c o p cell txd.msg (timeInterval txd.residence) s) txd

/-- `tc_complete_syfup`. -/
def tcCompleteSyfup (q p cell : Nat) (residence : Int) (s : TcState) : TcState :=
  let fate txd := tcMatchSyfup c q (s.message cell).data (s.message txd.msg).data txd
  let ingress := timeInterval (s.ports q).peerDelay + c.asymmetry q
  match (s.ports p).transmitted.find? (fate · ≠ .mismatch) with
  | none => tcStash q p cell residence s
  | some txd =>
    match fate txd with
    | .syncFup =>
      tcDrop p (tcTransmit c o p cell txd.msg (timeInterval txd.residence + ingress) s) txd
    | _ => tcDrop p (tcTransmit c o p txd.msg cell (timeInterval residence + ingress) s) txd

/-- `tc_complete`. -/
def tcComplete (q p cell : Nat) (residence : Int) (s : TcState) : TcState :=
  match msgType (s.message cell).data with
  | some .sync | some .followUp => tcCompleteSyfup c o q p cell residence s
  | some .delayReq => tcCompleteRequest q p cell residence s
  | some .delayResp => tcCompleteResponse c o q p cell s
  | _ => s

/-! ## Forwarding -/

/-- Sending the message itself by one port. -/
def tcSendTo (q cell : Nat) (s : TcState) (p : Nat) : TcState :=
  if tcBlocked c s q p (s.message cell).data then s else
    let s := s.send p cell
    if o.forwards p then s else tcFault c o p s

/-- The transmit time stamp of one port, and what it completes. -/
def tcStampOf (q cell : Nat) (ingress : Int) (s : TcState) (p : Nat) : TcState :=
  if tcBlocked c s q p (s.message cell).data then s else
    let s := s.output (.fetch p (load .big PtpHeader.messageLength (s.message cell).data))
    match o.stamps p with
    | none => tcFault c o p s
    | some stamp =>
      let s := s.withMessage cell (TcMessage.setHwts stamp)
      if stamp = 0 then tcFault c o p s else
        let egress := stamp + c.txTimestampOffset p
        let s := s.withMessage cell (TcMessage.setHwts egress)
        tcComplete c o q p cell (c.scaled (egress - ingress)) s

/-- `tc_fwd_event`. -/
def tcFwdEvent (q cell : Nat) (s : TcState) : TcState :=
  let ingress := (s.message cell).hwts
  let s := s.withMessage cell (TcMessage.setHost o.now)
  let s := c.ports.foldl (tcSendTo c o q cell) s
  c.ports.foldl (tcStampOf c o q cell ingress) s

/-- The completion at one port of a message that is not sent itself. -/
def tcCompleteAt (q cell : Nat) (s : TcState) (p : Nat) : TcState :=
  if tcBlocked c s q p (s.message cell).data then s else tcComplete c o q p cell 0 s

/-- `tc_fwd_folup`, and `tc_fwd_response` alike. -/
def tcFwdFolup (q cell : Nat) (s : TcState) : TcState :=
  let s := s.withMessage cell (TcMessage.setHost o.now)
  c.ports.foldl (tcCompleteAt c o q cell) s

/-- The Follow_Up that `tc_fwd_sync` builds for a one-step Sync. -/
def followUpOf (data : Storage) : Storage :=
  let fup : Storage := fun _ => 0
  let fup := setOctet PtpHeader.tsmt (8 ||| (data PtpHeader.tsmt &&& 0xf0)) fup
  let fup := copyOctets PtpHeader.ver 1 data fup
  let fup := store c.order PtpHeader.messageLength FollowUpMsg.size fup
  let fup := copyOctets PtpHeader.domainNumber 1 data fup
  let fup := copyOctets PtpHeader.sourcePortIdentity 10 data fup
  let fup := copyOctets PtpHeader.sequenceId.offset 2 data fup
  let fup := setOctet PtpHeader.control 2 fup
  let fup := copyOctets PtpHeader.logMessageInterval 1 data fup
  copyOctets PtpHeader.size Timestamp.size data fup

/-- `TWO_STEP` in the first octet of the flags. -/
def twoStep : UInt8 := 2

/-- `UNICAST` in the first octet of the flags. -/
def unicast : UInt8 := 4

/-- Mark a message as two-step. -/
def TcMessage.setTwoStep (msg : TcMessage) : TcMessage :=
  { msg with data :=
      setOctet PtpHeader.flagField (msg.data PtpHeader.flagField ||| twoStep) msg.data }

/-- `one_step`. -/
def oneStep (data : Storage) : Bool :=
  !c.assumeTwoStep && data PtpHeader.flagField &&& twoStep = 0

/-- A Sync that becomes a two-step one goes out before the Follow_Up built for it. The
second oracle answers for the Follow_Up. -/
def tcFwdConverted (again : TcOracle) (q cell fup : Nat) (s : TcState) : TcState :=
  let s := s.withMessage cell TcMessage.setTwoStep
  let s := tcFwdEvent c o q cell s
  let s := tcFwdFolup c again q fup s
  { s with msgs := s.msgs.put fup }

/-- `tc_fwd_sync`. -/
def tcFwdSync (again : TcOracle) (q cell : Nat) (s : TcState) : TcState :=
  let sync := s.message cell
  if oneStep c sync.data then
    let (fup, msgs) := s.msgs.allocate
      ⟨followUpOf c sync.data, FollowUpMsg.size, sync.serial, 0, 0⟩
    tcFwdConverted c o again q cell fup { s with msgs := msgs }
  else tcFwdEvent c o q cell s

/-- `tc_forward`. -/
def tcForward (q cell : Nat) (s : TcState) : TcState :=
  let s := if c.tcSpanningTree q ∧ msgType (s.message cell).data = some .announce then
      s.withMessage cell TcMessage.addStep
    else s
  c.ports.foldl (tcSendTo c o q cell) s

/-- The switch over the type in `e2e_event` and `p2p_event`. -/
def tcSwitch (again : TcOracle) (q cell : Nat) (s : TcState) : TcState :=
  match msgType (s.message cell).data with
  | some .sync => tcFwdSync c o again q cell s
  | some .delayReq => if c.endToEnd then tcFwdEvent c o q cell s else s
  | some .followUp => tcFwdFolup c o q cell s
  | some .delayResp => if c.endToEnd then tcFwdFolup c o q cell s else s
  | some .announce | some .signaling | some .management => tcForward c o q cell s
  | _ => s

end Forwarding

/-! ## Runs -/

/-- A message that arrives at a port, and what the environment answers. -/
structure TcReception where
  port : Nat
  wire : Storage
  cnt : Nat
  fits : cnt ≤ messageDataSize
  /-- `hwts.ts` after reception. -/
  ingress : Int
  oracle : TcOracle
  /-- The answers for a Follow_Up that is built here. -/
  again : TcOracle

/-- `msg_sots_missing`. -/
def sotsMissing (data : Storage) (hwts : Int) : Bool :=
  match msgType data with
  | some .sync | some .delayReq | some .pdelayReq | some .pdelayResp => hwts = 0
  | _ => false

/-- `msg_duplicate` succeeds. -/
def tcDuplicates (order : ByteOrder) (r : TcReception) : Bool :=
  match msgPostRecv order r.oracle.now r.cnt (Message.fresh r.wire) with
  | .ok _ _ => !sotsMissing r.wire r.ingress
  | .error _ _ => false

/-- A received message as it is handled. -/
def TcReception.message (r : TcReception) (serial : Nat) : TcMessage :=
  ⟨r.wire, r.cnt, serial, 0, r.ingress⟩

/-- What `e2e_event` and `p2p_event` do with a received message, as far as forwarding
goes. -/
def tcHandle (c : TcClock) (r : TcReception) (cell : Nat) (s : TcState) : TcState :=
  if r.wire PtpHeader.flagField &&& unicast ≠ 0 then s
  else if tcDuplicates c.order r then tcSwitch c r.oracle r.again r.port cell s
  else s

/-- `e2e_event` and `p2p_event` from `msg_allocate` to `msg_put`. -/
def tcReceive (c : TcClock) (r : TcReception) (s : TcState) : TcState :=
  let (cell, msgs) := s.msgs.allocate (r.message s.received)
  let s := tcHandle c r cell { s with msgs := msgs, received := s.received + 1 }
  { s with msgs := s.msgs.put cell }

/-- What happens to a transparent clock. -/
inductive TcEvent where
  | receive (r : TcReception)
  /-- The delay timer prunes the queue of a port. -/
  | prune (port : Nat) (now : Int)
  /-- `port_disable` flushes it. -/
  | flush (port : Nat)
  /-- The ports take other states or measure other peer delays. -/
  | ports (state : Nat → PortState) (peerDelay : Nat → Int)

def tcStep (c : TcClock) (s : TcState) : TcEvent → TcState
  | .receive r => tcReceive c r s
  | .prune p now => tcPrune p now s
  | .flush p => tcFlush p s
  | .ports state peerDelay => { s with ports := fun p => { s.ports p with
      state := state p, peerDelay := peerDelay p } }

/-- A run from a state on. -/
def tcRun (c : TcClock) (s : TcState) (events : List TcEvent) : TcState :=
  events.foldl (tcStep c) s

/-- Nothing was received yet. -/
def TcState.start : TcState where
  msgs := { content := fun _ => TcMessage.blank, count := fun _ => 0 }
  ports := fun _ => { state := .initializing }

end LinuxPtp
