import LinuxPtp.Dataset
import LinuxPtp.Fsm
import LinuxPtp.TransparentClock

/-!
# The state of a clock

What `clock.c`, `port.c` and the two transparent clock modules keep, and what the
environment contributes. Messages are in host order and with their fields read out.
A place that keeps a message has its cell in the pool, where it is counted, and what
the cell contained when it was put there.

Answers of the environment are supplied with each step. Where one step may ask for
the same thing several times, the answers are numbered, and the state counts the
questions asked. Memory is taken to be sufficient, and time stamps are integers.
-/

namespace LinuxPtp

open Octets RefPool

/-! ## Messages -/

/-- The body of `struct announce_msg`. -/
structure Announcement where
  currentUtcOffset : Int
  grandmasterPriority1 : UInt8
  grandmasterClockQuality : ClockQuality
  grandmasterPriority2 : UInt8
  grandmasterIdentity : ClockIdentity
  stepsRemoved : UInt16
  timeSource : UInt8
deriving DecidableEq

/-- A TLV, its value read as the clock identities of a `struct path_trace_tlv`, of which
there are as many as `path_length` says. -/
structure PathTrace where
  type : TlvType
  cid : List ClockIdentity
deriving DecidableEq

/-- What `clock_management_set` changes. -/
inductive Setting where
  | priority1 (number : UInt8)
  | priority2 (number : UInt8)
  | grandmasterSettings (quality : ClockQuality) (utcOffset : Int) (timeFlags timeSource : UInt8)
deriving DecidableEq

/-- What the protocol uses of a `struct ptp_message`. -/
structure PtpMessage where
  type : MsgType
  transportSpecific : UInt8
  domainNumber : UInt8
  /-- The first octet of `flagField`, with the bits `twoStep` and `unicast`. -/
  flags : UInt8
  /-- The second octet, with what is said of the time. -/
  timeFlags : UInt8
  correction : Int
  sourcePortIdentity : PortIdentity
  sequenceId : UInt16
  logMessageInterval : Int
  announce : Announcement
  requestingPortIdentity : PortIdentity
  /-- The list of TLVs that was parsed. -/
  tlvs : List PathTrace
  /-- What stands where the suffix of an Announce starts, parsed or not. -/
  suffix : PathTrace
  /-- `follow_up_info_extract` finds its TLV. -/
  followUpInfo : Bool
  /-- The SET that is addressed to this clock with the correct length, if the message is one. -/
  setting : Option Setting
  /-- `ts.pdu`. -/
  pdu : Int
  /-- `ts.host`. -/
  host : Int
  /-- `hwts.ts`. -/
  hwts : Int
  /-- `hwts.sw`. -/
  sw : Int
deriving DecidableEq

/-- A message that is kept: its cell, and what it contains. -/
structure Stored where
  cell : Nat
  msg : PtpMessage
deriving DecidableEq

/-! ## Ports -/

/-- `enum delay_mechanism`. -/
inductive DelayMechanism where
  | auto
  | e2e
  | p2p
deriving DecidableEq

/-- `enum timestamp_type`. -/
inductive TimestampType where
  | software
  | hardware
  | legacyHw
  | oneStep
  | p2p1Step
deriving DecidableEq

/-- `enum fault_type`. -/
inductive FaultType where
  | unspecified
  | badPeerNetwork
  | switchPhc
deriving DecidableEq

/-- `struct fault_interval`. -/
inductive FaultInterval where
  | linearSeconds (val : Int)
  | log2Seconds (val : Int)
deriving DecidableEq

/-- `clear_fault_asap`. -/
def clearFaultAsap : FaultInterval → Bool
  | .linearSeconds val => val = 0
  | .log2Seconds val => val = -128

/-- The timer of an interval is programmed with a time other than zero: `set_tmo_lin`
fails for a negative one, and `set_tmo_log` halves half a second to nothing. The distance
of a shift to the left is taken modulo 32. -/
def FaultInterval.arms : FaultInterval → Bool
  | .linearSeconds val => 0 < val
  | .log2Seconds val => if val < 0 then 500000000 / 2 ^ (-val - 1).toNat ≠ 0 else true

/-- The descriptors of a port, in the order in which `clock_poll` looks at them. -/
inductive Descriptor where
  | event
  | general
  | delayTimer
  | announceTimer
  | syncRxTimer
  | qualificationTimer
  | mannoTimer
  | syncTxTimer
  | rtnl
deriving DecidableEq

/-- `enum syfu_state`. -/
inductive SyfuState where
  | empty
  | haveSync
  | haveFup
deriving DecidableEq

/-- `struct foreign_clock` with its address. Its messages are counted as they are inserted
and removed, the newest being the first. -/
structure ForeignClock where
  id : Nat
  messages : List Stored := []
  nMessages : Nat := 0
  dataset : Dataset
  counted : nMessages = messages.length := by rfl
deriving DecidableEq

/-- `link_status`. -/
structure LinkStatus where
  up : Bool := true
  stateChanged : Bool := false
  tsLabelChanged : Bool := false
deriving DecidableEq

/-- The three messages of a peer delay measurement. -/
inductive PeerSlot where
  | req
  | resp
  | fup
deriving DecidableEq

/-- What a port keeps for its own running: timers, counters and the like. -/
structure PortRunning where
  /-- The timers that are armed, or expired and not set again. -/
  timers : Descriptor → Bool := fun _ => false
  announceSeqnum : UInt16 := 0
  delayreqSeqnum : UInt16 := 0
  syncSeqnum : UInt16 := 0
  logSyncInterval : Int := 0
  logMinDelayReqInterval : Int := 0
  /-- `peer_portid`, if it is valid. -/
  peerPortid : Option PortIdentity := none
  multipleSeqPdrCount : Nat := 0
  multiplePdrDetected : Bool := false

/-- `struct port`. -/
structure Port where
  state : PortState := .initializing
  foreignMasters : List ForeignClock := []
  /-- The address of the best foreign master. -/
  best : Option Nat := none
  syfu : SyfuState := .empty
  /-- Meaningless while `syfu` says that it is empty. -/
  lastSyncfup : Option Stored := none
  delayReq : List Stored := []
  peerDelay : PeerSlot → Option Stored := fun _ => none
  delayMechanism : DelayMechanism := .e2e
  lastFaultType : FaultType := .unspecified
  linkStatus : LinkStatus := {}
  /-- The fault timer is armed, or expired and not handled. -/
  faultArmed : Bool := false
  running : PortRunning := {}

/-- What the configuration says of a port. -/
structure PortSetup where
  masterOnly : Bool := false
  jbod : Bool := false
  hybridE2e : Bool := false
  netSyncMonitor : Bool := false
  pathTraceEnabled : Bool := false
  followUpInfo : Bool := false
  tcSpanningTree : Bool := false
  matchTransportSpecific : Bool := true
  transportSpecific : UInt8 := 0
  localPriority : UInt8 := 128
  asymmetry : Int := 0
  rxTimestampOffset : Int := 0
  txTimestampOffset : Int := 0
  timestamping : TimestampType := .hardware
  delayMechanism : DelayMechanism := .e2e
  logMinDelayReqInterval : Int := 0
  /-- `flt_interval_pertype`. -/
  faultInterval : FaultType → FaultInterval := fun _ => .log2Seconds 4

/-! ## Clocks -/

/-- `enum clock_type`, as far as clocks are created. -/
inductive ClockType where
  | ordinary
  | boundary
  | p2p
  | e2e
deriving DecidableEq

/-- `enum servo_state`. -/
inductive ServoState where
  | unlocked
  | jump
  | locked
deriving DecidableEq

/-- `enum tsproc_mode`. -/
inductive TsprocMode where
  | filter
  | raw
  | filterWeight
  | rawWeight
deriving DecidableEq

/-- What does not change while the clock runs. -/
structure Clock where
  order : ByteOrder
  type : ClockType
  clockIdentity : ClockIdentity
  domainNumber : UInt8
  slaveOnly : Bool := false
  /-- The comparison is `telecom_dscmp`. -/
  telecom : Bool := false
  localPriority : UInt8 := 128
  /-- The network ports are numbered from one on, in the order of the list; the UDS port
  has number 0. -/
  nports : Nat
  freeRunning : Bool := false
  assumeTwoStep : Bool := false
  gmCapable : Bool := true
  utcTimescale : Bool := false
  initialDelay : Int := 0
  tsprocMode : TsprocMode := .filter
  setup : Nat → PortSetup

/-- `struct tsproc`. The code does not keep whose messages the time stamps come from. -/
structure Tsproc where
  t1 : Int := 0
  t2 : Int := 0
  t3 : Int := 0
  t4 : Int := 0
  filteredDelayValid : Bool := false
  t1From : Option PortIdentity := none
  t2From : Option PortIdentity := none
  t4From : Option PortIdentity := none
deriving DecidableEq

/-- What the clock keeps of the foreign master that it selected, the record itself being
found in the list of its port. -/
structure Best where
  port : Nat
  id : Nat
  dataset : Dataset
deriving DecidableEq

/-- `struct parentDS`. -/
structure Parent where
  parentPortIdentity : PortIdentity
  grandmasterIdentity : ClockIdentity
  grandmasterClockQuality : ClockQuality
  grandmasterPriority1 : UInt8
  grandmasterPriority2 : UInt8
deriving DecidableEq

/-- `struct timePropertiesDS`. -/
structure TimeProperties where
  currentUtcOffset : Int := 0
  flags : UInt8 := 0
  timeSource : UInt8 := 0
deriving DecidableEq

/-- What of `struct defaultDS` can be set. -/
structure DefaultDataSet where
  priority1 : UInt8
  clockQuality : ClockQuality
  priority2 : UInt8
deriving DecidableEq

/-- What happened that is of interest; the code does not keep it. -/
inductive Observation where
  /-- `port_synchronize` was called for a pair. -/
  | paired (sync fup : PtpMessage)
  /-- The time stamp processor combined time stamps while it served a port. -/
  | combined (port : Nat) (t1From t2From t4From : Option PortIdentity)
  /-- `clock_utc_correct` applied an offset while it served a port, and what it went by. -/
  | corrected (port : Nat) (applied utcOffset : Int) (flags : UInt8)
  /-- The first announce of the best foreign master of a port was taken. -/
  | took (port : Nat) (message : Option Stored)
  /-- The best foreign master of a port was read though the port has none. -/
  | strayed (port : Nat)
deriving DecidableEq

/-- The state of a clock. -/
structure ClockState where
  msgs : Pool PtpMessage
  /-- The messages that handlers in progress hold. -/
  hands : List Nat := []
  ports : Nat → Port
  /-- Records of foreign masters from this address on were never allocated. -/
  nextForeign : Nat := 0
  best : Option Best := none
  bestId : ClockIdentity
  dds : DefaultDataSet
  /-- `cur.stepsRemoved`. -/
  stepsRemoved : UInt16 := 0
  parent : Parent
  /-- The first `path_length` entries of `ptl`. -/
  path : List ClockIdentity := []
  tds : TimeProperties := {}
  utcOffset : Int := 0
  timeFlags : UInt8 := 0
  timeSource : UInt8 := 0
  /-- The clock is `CLOCK_REALTIME`. -/
  realtime : Bool := false
  leapSet : Int := 0
  servoState : ServoState := .unlocked
  masterOffset : Int := 0
  tsproc : Tsproc := {}
  sde : Bool := false
  /-- The number of questions to the environment so far. -/
  asked : Nat := 0
  log : List Observation := []
  /-- The announces accepted last, by port and sender. -/
  heard : Nat → PortIdentity → Option PtpMessage := fun _ _ => none
  /-- What the last state decision saw of the best foreign master of a port, and whether a
  change has been reported for the port since. -/
  used : Nat → Option Announcement := fun _ => none
  reported : Nat → Bool := fun _ => false

/-! ## Answers -/

/-- What comes in by a socket. -/
inductive Reception where
  /-- `transport_recv` fails. -/
  | failed
  /-- `msg_post_recv` refuses it, or its time stamp is missing. -/
  | rejected
  | message (msg : PtpMessage)

/-- What `port_link_status` makes of a change of the physical clock. -/
inductive LinkClock where
  | same
  | unsupported
  | switched
deriving DecidableEq

/-- One notification of the link status. -/
structure LinkNews where
  up : Bool
  tsLabelChanged : Bool := false
  clock : LinkClock := .same

/-- The answers of the environment while one descriptor is handled. -/
structure Answers where
  /-- The time. -/
  now : Int := 0
  /-- The time when a foreign master is pruned, by its address. -/
  pruned : Nat → Int := fun _ => 0
  received : Reception := .failed
  /-- The notifications that `rtnl_link_status` reads. -/
  links : List LinkNews := []
  /-- `port_capable`. -/
  capable : Nat → Bool := fun _ => true
  /-- Sending by a port: the time stamp, if the message could be sent and has one where it
  needs one. -/
  sends : Nat → Nat → Option Int := fun _ _ => some 1
  /-- `port_initialize` succeeds. -/
  starts : Nat → Nat → Bool := fun _ _ => true
  /-- `transport_open` succeeds when the transport is renewed. -/
  renews : Bool := true
  /-- `clock_switch_phc` succeeds. -/
  switches : Nat → Nat → Bool := fun _ _ => true
  /-- A frame goes out at an egress port of a transparent clock. -/
  egress : Nat → Nat → Bool := fun _ _ => true
  /-- `follow_up_info_append` and `net_sync_resp_append` find room. -/
  room : Bool := true
  /-- The offset that `tsproc_update_offset` finds. -/
  offset : Int := 0
  /-- The state that `servo_sample` returns. -/
  servo : ServoState := .locked
  /-- The number of messages that a management message is answered and passed on with. -/
  replies : Nat := 0

/-! ## Elementary changes -/

namespace ClockState

variable (s : ClockState)

/-- A question to the environment. -/
def ask : ClockState := { s with asked := s.asked + 1 }

/-- Change a port. -/
def withPort (p : Nat) (change : Port → Port) : ClockState :=
  { s with ports := Function.update s.ports p (change (s.ports p)) }

/-- Change what a port keeps for its own running. -/
def withRunning (p : Nat) (change : PortRunning → PortRunning) : ClockState :=
  s.withPort p fun port => { port with running := change port.running }

/-- Note what happened. -/
def note (what : Observation) : ClockState := { s with log := s.log ++ [what] }

/-- `msg_allocate` of a message with the supplied content, by a handler. -/
def obtain (msg : PtpMessage) : Stored × ClockState :=
  let (cell, msgs) := s.msgs.allocate msg
  (⟨cell, msg⟩, { s with msgs := msgs, hands := cell :: s.hands })

/-- `msg_put` by a handler that allocated the message. -/
def release (cell : Nat) : ClockState :=
  { s with msgs := s.msgs.put cell, hands := s.hands.erase cell }

/-- `msg_put` of a message by the place that kept it. -/
def put (cell : Nat) : ClockState := { s with msgs := s.msgs.put cell }

/-- `msg_get`. -/
def get (cell : Nat) : ClockState := { s with msgs := s.msgs.get cell }

/-- A message that a handler holds is changed in place. -/
def amend (cell : Nat) (msg : PtpMessage) : ClockState :=
  { s with msgs := s.msgs.modify cell fun _ => msg }

/-- A message that is allocated, sent and put in one go. -/
def scratch (msg : PtpMessage) : ClockState :=
  let (stored, s) := s.obtain msg
  s.release stored.cell

end ClockState

end LinuxPtp
