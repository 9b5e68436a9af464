import LinuxPtp.ClockSync
import LinuxPtp.Forward
import LinuxPtp.OctetLists

/-!
# What is managed

What `clock_manage` and the functions under it read and change of a clock and its ports. The data
sets that are copied into messages as a whole are the octets of their packed structures in the
memory of the host. Floating point numbers are not represented; what a response contains of them
is part of the state.
-/

namespace LinuxPtp

open Octets

/-! ## Identifiers -/

/-- `enum management_action`. -/
inductive ManagementAction where
  | get
  | set
  | response
  | command
  | acknowledge
  | other
deriving DecidableEq

/-- `management_action`. -/
def managementAction (data : Storage) : ManagementAction :=
  match lowNibble (data ManagementMsg.flags).toNat with
  | 0 => .get
  | 1 => .set
  | 2 => .response
  | 3 => .command
  | 4 => .acknowledge
  | _ => .other

/-- The management identifiers of `tlv.h`. -/
inductive MgmtId where
  | userDescription
  | saveInNonVolatileStorage
  | resetNonVolatileStorage
  | initializeKey
  | faultLog
  | faultLogReset
  | defaultDataSet
  | currentDataSet
  | parentDataSet
  | timePropertiesDataSet
  | priority1
  | priority2
  | domain
  | slaveOnly
  | time
  | clockAccuracy
  | utcProperties
  | traceabilityProperties
  | timescaleProperties
  | pathTraceList
  | pathTraceEnable
  | grandmasterClusterTable
  | acceptableMasterTable
  | acceptableMasterMaxTableSize
  | alternateTimeOffsetEnable
  | alternateTimeOffsetName
  | alternateTimeOffsetMaxKey
  | alternateTimeOffsetProperties
  | transparentClockDefaultDataSet
  | primaryDomain
  | timeStatusNp
  | grandmasterSettingsNp
  | subscribeEventsNp
  | nullManagement
  | clockDescription
  | portDataSet
  | logAnnounceInterval
  | announceReceiptTimeout
  | logSyncInterval
  | versionNumber
  | enablePort
  | disablePort
  | unicastNegotiationEnable
  | unicastMasterTable
  | unicastMasterMaxTableSize
  | acceptableMasterTableEnabled
  | alternateMaster
  | transparentClockPortDataSet
  | delayMechanism
  | logMinPdelayReqInterval
  | portDataSetNp
  | portPropertiesNp
deriving DecidableEq

namespace MgmtId

/-- The number of an identifier. -/
def code : MgmtId → Nat
  | userDescription => 0x0002
  | saveInNonVolatileStorage => 0x0003
  | resetNonVolatileStorage => 0x0004
  | initializeKey => 0x0005
  | faultLog => 0x0006
  | faultLogReset => 0x0007
  | defaultDataSet => 0x2000
  | currentDataSet => 0x2001
  | parentDataSet => 0x2002
  | timePropertiesDataSet => 0x2003
  | priority1 => 0x2005
  | priority2 => 0x2006
  | domain => 0x2007
  | slaveOnly => 0x2008
  | time => 0x200F
  | clockAccuracy => 0x2010
  | utcProperties => 0x2011
  | traceabilityProperties => 0x2012
  | timescaleProperties => 0x2013
  | pathTraceList => 0x2015
  | pathTraceEnable => 0x2016
  | grandmasterClusterTable => 0x2017
  | acceptableMasterTable => 0x201A
  | acceptableMasterMaxTableSize => 0x201C
  | alternateTimeOffsetEnable => 0x201E
  | alternateTimeOffsetName => 0x201F
  | alternateTimeOffsetMaxKey => 0x2020
  | alternateTimeOffsetProperties => 0x2021
  | transparentClockDefaultDataSet => 0x4000
  | primaryDomain => 0x4002
  | timeStatusNp => 0xC000
  | grandmasterSettingsNp => 0xC001
  | subscribeEventsNp => 0xC003
  | nullManagement => 0x0000
  | clockDescription => 0x0001
  | portDataSet => 0x2004
  | logAnnounceInterval => 0x2009
  | announceReceiptTimeout => 0x200A
  | logSyncInterval => 0x200B
  | versionNumber => 0x200C
  | enablePort => 0x200D
  | disablePort => 0x200E
  | unicastNegotiationEnable => 0x2014
  | unicastMasterTable => 0x2018
  | unicastMasterMaxTableSize => 0x2019
  | acceptableMasterTableEnabled => 0x201B
  | alternateMaster => 0x201D
  | transparentClockPortDataSet => 0x4001
  | delayMechanism => 0x6000
  | logMinPdelayReqInterval => 0x6001
  | portDataSetNp => 0xC002
  | portPropertiesNp => 0xC004

/-- The identifiers in the order of `tlv.h`. -/
def all : List MgmtId :=
  [userDescription, saveInNonVolatileStorage, resetNonVolatileStorage, initializeKey, faultLog,
    faultLogReset, defaultDataSet, currentDataSet, parentDataSet, timePropertiesDataSet, priority1,
    priority2, domain, slaveOnly, time, clockAccuracy, utcProperties, traceabilityProperties,
    timescaleProperties, pathTraceList, pathTraceEnable, grandmasterClusterTable,
    acceptableMasterTable, acceptableMasterMaxTableSize, alternateTimeOffsetEnable,
    alternateTimeOffsetName, alternateTimeOffsetMaxKey, alternateTimeOffsetProperties,
    transparentClockDefaultDataSet, primaryDomain, timeStatusNp, grandmasterSettingsNp,
    subscribeEventsNp, nullManagement, clockDescription, portDataSet, logAnnounceInterval,
    announceReceiptTimeout, logSyncInterval, versionNumber, enablePort, disablePort,
    unicastNegotiationEnable, unicastMasterTable, unicastMasterMaxTableSize,
    acceptableMasterTableEnabled, alternateMaster, transparentClockPortDataSet, delayMechanism,
    logMinPdelayReqInterval, portDataSetNp, portPropertiesNp]

/-- The identifier with a number, if there is one. -/
def ofCode (code : Nat) : Option MgmtId := all.find? fun id => id.code = code

theorem ofCode_code (id : MgmtId) : ofCode id.code = some id := by
  cases id <;> rfl

/-- An identifier is found by its own code only. -/
theorem code_of_ofCode {code : Nat} {id : MgmtId} (found : ofCode code = some id) :
    id.code = code := by
  unfold ofCode at found
  have there := List.find?_some found
  exact of_decide_eq_true there

end MgmtId

/-- The error identifiers that are sent. -/
inductive ManagementErrorId where
  | noSuchId
  | wrongLength
  | wrongValue
  | notSupported
deriving DecidableEq

def ManagementErrorId.code : ManagementErrorId → Nat
  | .noSuchId => 0x0002
  | .wrongLength => 0x0003
  | .wrongValue => 0x0004
  | .notSupported => 0x0006

/-! ## Single octets of the data sets -/

namespace DefaultDS

def priority1 : Nat := 4
/-- The four octets of `struct ClockQuality`. -/
def clockQuality : Nat := 5
def clockAccuracy : Nat := 6
def priority2 : Nat := 9
def clockIdentity : Nat := 10
def domainNumber : Nat := 18

end DefaultDS

namespace ParentDS

def grandmasterIdentity : Nat := 24

end ParentDS

namespace TimePropertiesDS

def flags : Nat := 2

end TimePropertiesDS

namespace GrandmasterSettingsNp

def clockQuality : Nat := 0
def timeFlags : Nat := 6
def timeSource : Nat := 7

end GrandmasterSettingsNp

namespace SubscribeEventsNp

def bitmask : Nat := 2
def bitmaskCnt : Nat := 64

end SubscribeEventsNp

namespace ManagementMsg

/-- The ten octets of `struct PortIdentity`. -/
def targetPortIdentity : Nat := 34

end ManagementMsg

/-! ## Numbers of enumerations -/

def PortState.code : PortState → UInt8
  | .initializing => 1
  | .faulty => 2
  | .disabled => 3
  | .listening => 4
  | .preMaster => 5
  | .master => 6
  | .passive => 7
  | .uncalibrated => 8
  | .slave => 9
  | .grandMaster => 10

def DelayMechanism.code : DelayMechanism → UInt8
  | .auto => 0
  | .e2e => 1
  | .p2p => 2

def TimestampType.code : TimestampType → UInt8
  | .software => 0
  | .hardware => 1
  | .legacyHw => 2
  | .oneStep => 3
  | .p2p1Step => 4

def ClockType.code : ClockType → Nat
  | .ordinary => 0x8000
  | .boundary => 0x4000
  | .p2p => 0x2000
  | .e2e => 0x1000

/-- `enum transport_type`, as far as transports are created. -/
inductive TransportType where
  | uds
  | udpIpv4
  | udpIpv6
  | ieee8023
deriving DecidableEq

def TransportType.code : TransportType → Nat
  | .uds => 0
  | .udpIpv4 => 1
  | .udpIpv6 => 2
  | .ieee8023 => 3

/-! ## The state -/

/-- `struct static_ptp_text`. -/
structure StaticPtpText where
  text : List UInt8
  bounded : text.length ≤ 255

/-- `struct clock_description`. -/
structure ClockDescription where
  productDescription : StaticPtpText
  revisionData : StaticPtpText
  userDescription : StaticPtpText
  manufacturerIdentity : Vector UInt8 3

/-- `struct address`. -/
abbrev Address := List UInt8

/-- What a transport writes of its addresses. -/
structure TransportAddress where
  octets : List UInt8
  bounded : octets.length ≤ transportAddrLen

/-- `struct clock_subscriber`. -/
structure ClockSubscriber where
  events : List UInt8
  targetPortIdentity : List UInt8
  addr : Address
  sequenceId : UInt16
  expiration : Int

/-- `struct port`. -/
structure ManagedPort where
  portIdentity : PortIdentity
  state : PortState
  transportSpecific : UInt8
  shifted : transportSpecific &&& 0x0f = 0 := by decide
  logMinDelayReqInterval : UInt8
  peerMeanPathDelay : UInt64
  logAnnounceInterval : UInt8
  announceReceiptTimeout : UInt8
  logSyncInterval : UInt8
  delayMechanism : DelayMechanism
  logMinPdelayReqInterval : UInt8
  versionNumber : UInt8
  neighborPropDelayThresh : UInt32
  asCapable : UInt32
  timestamping : TimestampType
  tsLabel : StaticPtpText
  transportType : TransportType
  physicalAddr : TransportAddress
  protocolAddr : TransportAddress
  foreignMasters : List ForeignClock := []

/-- `portnum`. -/
def ManagedPort.portnum (p : ManagedPort) : Nat := p.portIdentity.portNumber.toNat

/-- `struct clock`. -/
structure ManagedClock where
  type : ClockType
  /-- `struct defaultDS`. -/
  dds : Storage
  /-- `struct currentDS`. -/
  cur : Storage
  /-- `struct parentDS`. -/
  pds : Storage
  /-- `struct timePropertiesDS`. -/
  tds : Storage
  utcOffset : Int
  timeFlags : UInt8
  timeSource : UInt8
  masterOffset : UInt64
  ingressTs : UInt64
  /-- `struct time_status_np`. -/
  status : Storage
  /-- What comes out for `cumulativeScaledRateOffset`. -/
  scaledRateOffset : UInt32
  desc : ClockDescription
  subscribers : List ClockSubscriber
  ports : List ManagedPort
  udsPort : ManagedPort

namespace ManagedClock

/-- A port. -/
def port (c : ManagedClock) : PortRef → ManagedPort
  | .port index => c.ports.getD index c.udsPort
  | .uds => c.udsPort

/-- What forwarding looks at. -/
def forwardClock (c : ManagedClock) : ForwardClock :=
  ⟨c.ports.map ManagedPort.state, c.udsPort.state⟩

/-- Change a port of the list. -/
def withPort (c : ManagedClock) (index : Nat) (change : ManagedPort → ManagedPort) :
    ManagedClock := { c with ports := c.ports.modify index change }

end ManagedClock

/-- A management message with where it came from. -/
structure ManagementRequest where
  msg : Message
  address : Address

/-- What the environment contributes while a message is handled: the monotonic clock, and whether
memory is there each time some is asked for. -/
structure Surroundings where
  now : Int
  memory : Nat → Bool

/-- The state while a message is handled, with the responses so far. -/
structure Managing where
  clock : ManagedClock
  asked : Nat := 0
  responses : List (PortRef × Message) := []

namespace Managing

/-- Ask for memory. -/
def ask (e : Surroundings) (s : Managing) : Bool × Managing :=
  (e.memory s.asked, { s with asked := s.asked + 1 })

/-- `port_prepare_and_send`. -/
def respond (p : PortRef) (msg : Message) (s : Managing) : Managing :=
  { s with responses := s.responses ++ [(p, msg)] }

@[simp] theorem ask_clock (e : Surroundings) (s : Managing) : (s.ask e).2.clock = s.clock := rfl

@[simp] theorem respond_clock (p : PortRef) (msg : Message) (s : Managing) :
    (s.respond p msg).clock = s.clock := rfl

end Managing

end LinuxPtp
