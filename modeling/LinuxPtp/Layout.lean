import LinuxPtp.Octets

/-!
# Layout of the packed records

Sizes and multi-octet fields of the packed structures in `ddt.h`, `ds.h`,
`msg.h` and `tlv.h`. Offsets are relative to the start of the structure. Only
the fields some modelled function reads or converts are named; single octets
are named by their offset alone.
-/

namespace LinuxPtp

open Octets

/-! ## Messages (`msg.h`) -/

namespace PtpHeader

def size : Nat := 34
def tsmt : Nat := 0
def ver : Nat := 1
def messageLength : Field := ⟨2, 2⟩
def domainNumber : Nat := 4
def flagField : Nat := 6
def correction : Field := ⟨8, 8⟩
/-- The ten octets of `struct PortIdentity`. -/
def sourcePortIdentity : Nat := 20
def sourcePortNumber : Field := ⟨28, 2⟩
def sequenceId : Field := ⟨30, 2⟩
def control : Nat := 32
def logMessageInterval : Nat := 33

end PtpHeader

/-- `struct Timestamp` on the wire. -/
structure TimestampFields where
  secondsMsb : Field
  secondsLsb : Field
  nanoseconds : Field

namespace Timestamp

def size : Nat := 10

/-- The fields of a time stamp that starts at the supplied offset. -/
def fields (base : Nat) : TimestampFields :=
  ⟨⟨base, 2⟩, ⟨base + 2, 4⟩, ⟨base + 6, 4⟩⟩

end Timestamp

/-- Every body begins with the time stamp or port identity after the header. -/
def bodyTimestamp : TimestampFields := Timestamp.fields PtpHeader.size

namespace SyncMsg
def size : Nat := 44
end SyncMsg

namespace DelayReqMsg
def size : Nat := 44
end DelayReqMsg

namespace FollowUpMsg
def size : Nat := 44
end FollowUpMsg

namespace PdelayReqMsg
def size : Nat := 54
end PdelayReqMsg

namespace DelayRespMsg
def size : Nat := 54
/-- The ten octets of `struct PortIdentity`. -/
def requestingPortIdentity : Nat := 44
def requestingPortNumber : Field := ⟨52, 2⟩
end DelayRespMsg

namespace PdelayRespMsg
def size : Nat := 54
def requestingPortNumber : Field := ⟨52, 2⟩
end PdelayRespMsg

namespace PdelayRespFupMsg
def size : Nat := 54
def requestingPortNumber : Field := ⟨52, 2⟩
end PdelayRespFupMsg

namespace AnnounceMsg
def size : Nat := 64
def currentUtcOffset : Field := ⟨44, 2⟩
def grandmasterOffsetScaledLogVariance : Field := ⟨50, 2⟩
def stepsRemoved : Field := ⟨61, 2⟩
end AnnounceMsg

namespace SignalingMsg
def size : Nat := 44
end SignalingMsg

namespace ManagementMsg
def size : Nat := 48
def targetPortNumber : Field := ⟨42, 2⟩
def startingBoundaryHops : Nat := 44
def boundaryHops : Nat := 45
def flags : Nat := 46
end ManagementMsg

/-- `struct message_data`, the buffer of a message. -/
def messageDataSize : Nat := 1500

/-! ## TLVs (`ddt.h`, `tlv.h`) -/

namespace Tlv
def size : Nat := 4
def type : Field := ⟨0, 2⟩
def length : Field := ⟨2, 2⟩
end Tlv

namespace ManagementTlv
def size : Nat := 6
def id : Field := ⟨4, 2⟩
def data : Nat := 6
end ManagementTlv

namespace ManagementErrorStatus
def size : Nat := 12
def error : Field := ⟨4, 2⟩
def id : Field := ⟨6, 2⟩
end ManagementErrorStatus

namespace OrganizationTlv
def size : Nat := 10
def id : Nat := 4
def subtype : Nat := 7
end OrganizationTlv

namespace ScaledNs
/-- A 96-bit number in three unaligned parts. -/
def size : Nat := 12
def nanosecondsMsb : Field := ⟨0, 2⟩
def nanosecondsLsb : Field := ⟨2, 8⟩
def fractionalNanoseconds : Field := ⟨10, 2⟩
end ScaledNs

namespace FollowUpInfoTlv
def size : Nat := 32
def cumulativeScaledRateOffset : Field := ⟨10, 4⟩
def gmTimeBaseIndicator : Field := ⟨14, 2⟩
def lastGmPhaseChange : Nat := 16
def scaledLastGmPhaseChange : Field := ⟨28, 4⟩
end FollowUpInfoTlv

namespace ClockIdentity
def size : Nat := 8
end ClockIdentity

/-- The number of clock identities that fit into the path of an Announce. -/
def pathTraceMax : Nat :=
  (messageDataSize - AnnounceMsg.size - Tlv.size) / ClockIdentity.size

namespace PortAddress
def size : Nat := 4
def networkProtocol : Field := ⟨0, 2⟩
def addressLength : Field := ⟨2, 2⟩
end PortAddress

namespace PhysicalAddress
def size : Nat := 2
def length : Field := ⟨0, 2⟩
end PhysicalAddress

namespace PTPText
def size : Nat := 1
end PTPText

def ouiLen : Nat := 3
def profileIdLen : Nat := 6
def transportAddrLen : Nat := 16

/-! ## Data sets carried by TLVs (`ds.h`, `tlv.h`) -/

namespace DefaultDS
def size : Nat := 20
def numberPorts : Field := ⟨2, 2⟩
def offsetScaledLogVariance : Field := ⟨7, 2⟩
end DefaultDS

namespace CurrentDS
def size : Nat := 18
def stepsRemoved : Field := ⟨0, 2⟩
def offsetFromMaster : Field := ⟨2, 8⟩
def meanPathDelay : Field := ⟨10, 8⟩
end CurrentDS

namespace ParentDS
def size : Nat := 32
def parentPortNumber : Field := ⟨8, 2⟩
def observedParentOffsetScaledLogVariance : Field := ⟨12, 2⟩
def observedParentClockPhaseChangeRate : Field := ⟨14, 4⟩
def grandmasterOffsetScaledLogVariance : Field := ⟨21, 2⟩
end ParentDS

namespace TimePropertiesDS
def size : Nat := 4
def currentUtcOffset : Field := ⟨0, 2⟩
end TimePropertiesDS

namespace PortDS
def size : Nat := 26
def portNumber : Field := ⟨8, 2⟩
def peerMeanPathDelay : Field := ⟨12, 8⟩
end PortDS

namespace TimeStatusNp
def size : Nat := 50
def masterOffset : Field := ⟨0, 8⟩
def ingressTime : Field := ⟨8, 8⟩
def cumulativeScaledRateOffset : Field := ⟨16, 4⟩
def scaledLastGmPhaseChange : Field := ⟨20, 4⟩
def gmTimeBaseIndicator : Field := ⟨24, 2⟩
def lastGmPhaseChange : Nat := 26
def gmPresent : Field := ⟨38, 4⟩
end TimeStatusNp

namespace GrandmasterSettingsNp
def size : Nat := 8
def offsetScaledLogVariance : Field := ⟨2, 2⟩
def utcOffset : Field := ⟨4, 2⟩
end GrandmasterSettingsNp

namespace PortDsNp
def size : Nat := 8
def neighborPropDelayThresh : Field := ⟨0, 4⟩
def asCapable : Field := ⟨4, 4⟩
end PortDsNp

namespace SubscribeEventsNp
def size : Nat := 66
def duration : Field := ⟨0, 2⟩
end SubscribeEventsNp

namespace PortPropertiesNp
def size : Nat := 13
def portNumber : Field := ⟨8, 2⟩
/-- The length octet of the text `interface`. -/
def interfaceLength : Nat := 12
end PortPropertiesNp

namespace NsmRespTlvHead
def size : Nat := 10
def networkProtocol : Field := ⟨6, 2⟩
def addressLength : Field := ⟨8, 2⟩
end NsmRespTlvHead

namespace NsmRespTlvFoot
def size : Nat := 64
def parent : Nat := 0
def current : Nat := 32
def timeprop : Nat := 50
def lastsync : TimestampFields := Timestamp.fields 54
end NsmRespTlvFoot

end LinuxPtp
