import LinuxPtp.Acceptance
import LinuxPtp.AnnounceNetwork
import LinuxPtp.AnnounceWindow
import LinuxPtp.BestMaster
import LinuxPtp.BestPointer
import LinuxPtp.CText
import LinuxPtp.CalmSteps
import LinuxPtp.ChainedTables
import LinuxPtp.CheckedArithmetic
import LinuxPtp.ClockPoll
import LinuxPtp.ClockRuns
import LinuxPtp.ClockState
import LinuxPtp.ClockSync
import LinuxPtp.ConfigComments
import LinuxPtp.ConfigFile
import LinuxPtp.ConfigStore
import LinuxPtp.ConfigTable
import LinuxPtp.ControlLoop
import LinuxPtp.DampedRecurrences
import LinuxPtp.Dataset
import LinuxPtp.DatasetOrder
import LinuxPtp.DispatchEffects
import LinuxPtp.EffectFrames
import LinuxPtp.Effects
import LinuxPtp.Election
import LinuxPtp.ElectionOrder
import LinuxPtp.Exchanges
import LinuxPtp.FaultTimers
import LinuxPtp.Filters
import LinuxPtp.FloatingPoint
import LinuxPtp.ForeignMasters
import LinuxPtp.ForeignRecords
import LinuxPtp.Forward
import LinuxPtp.ForwardImage
import LinuxPtp.FrameBounds
import LinuxPtp.Fsm
import LinuxPtp.HandlerEffects
import LinuxPtp.KeyedLists
import LinuxPtp.Layout
import LinuxPtp.LeapSeconds
import LinuxPtp.LinearRegression
import LinuxPtp.LocalCopy
import LinuxPtp.LocalOctets
import LinuxPtp.Management
import LinuxPtp.ManagementAccess
import LinuxPtp.ManagementAnswers
import LinuxPtp.ManagementReply
import LinuxPtp.ManagementSet
import LinuxPtp.ManagementState
import LinuxPtp.ManagementValues
import LinuxPtp.MeasuredOffset
import LinuxPtp.MessageCounts
import LinuxPtp.MovingMedian
import LinuxPtp.MsgCodec
import LinuxPtp.MsgParse
import LinuxPtp.OctetLists
import LinuxPtp.Octets
import LinuxPtp.OneMaster
import LinuxPtp.OrdinarySteps
import LinuxPtp.PackedMembers
import LinuxPtp.PacketFilter
import LinuxPtp.ParseRules
import LinuxPtp.Places
import LinuxPtp.PointerArrays
import LinuxPtp.PortDispatch
import LinuxPtp.PortEvents
import LinuxPtp.PortSteps
import LinuxPtp.RawFrames
import LinuxPtp.Receive
import LinuxPtp.ReceivedSets
import LinuxPtp.RecordRuns
import LinuxPtp.RecordedAnnounces
import LinuxPtp.RefPool
import LinuxPtp.Relay
import LinuxPtp.Reparse
import LinuxPtp.ReportedTimes
import LinuxPtp.RingBuffers
import LinuxPtp.RoundTrip
import LinuxPtp.RunningMoments
import LinuxPtp.RunningTimers
import LinuxPtp.Runs
import LinuxPtp.SanityCheck
import LinuxPtp.ScopedMaps
import LinuxPtp.ServoState
import LinuxPtp.ServoSteps
import LinuxPtp.Servos
import LinuxPtp.SettledNetwork
import LinuxPtp.SharedGroups
import LinuxPtp.ShiftInsertion
import LinuxPtp.SlavePorts
import LinuxPtp.SlaveServo
import LinuxPtp.SourceSelection
import LinuxPtp.StateDecision
import LinuxPtp.Statistics
import LinuxPtp.StepEffects
import LinuxPtp.Subscriptions
import LinuxPtp.Suffix
import LinuxPtp.SuffixImage
import LinuxPtp.SyncEffects
import LinuxPtp.SyncMonitor
import LinuxPtp.SyncPairs
import LinuxPtp.SystemOffset
import LinuxPtp.TcAnswers
import LinuxPtp.TcForwarding
import LinuxPtp.TcLedger
import LinuxPtp.TcOwnership
import LinuxPtp.TcQueues
import LinuxPtp.TcRequests
import LinuxPtp.TcResidence
import LinuxPtp.TcResponses
import LinuxPtp.Timemaster
import LinuxPtp.TimemasterAllocation
import LinuxPtp.TimemasterPlan
import LinuxPtp.Timeouts
import LinuxPtp.TimestampProcessor
import LinuxPtp.TlvAppend
import LinuxPtp.TlvCodec
import LinuxPtp.TlvGrammar
import LinuxPtp.TlvReceive
import LinuxPtp.TlvSend
import LinuxPtp.TlvShape
import LinuxPtp.TlvTranscode
import LinuxPtp.Tmv
import LinuxPtp.TrackedMasters
import LinuxPtp.TransparentClock
import LinuxPtp.WireTimes
