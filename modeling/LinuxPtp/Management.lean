import LinuxPtp.ManagementReply

/-!
# Handling management messages

`clock_manage` of `clock.c` with the ports it asks. A message is forwarded first, and what is
handled afterwards is the message as forwarding leaves it.
-/

namespace LinuxPtp.Management

open Octets

section Handling

variable (order : ByteOrder) (e : Surroundings)

/-- Where the TLV of a management message is looked for. -/
def managementSuffix : Nat := ManagementMsg.size

/-- `mgt->length`. -/
def mgtLength (data : Storage) : Nat := load order (Tlv.length.shift managementSuffix) data

/-- `mgt->id`. -/
def mgtId (data : Storage) : Nat := load order (ManagementTlv.id.shift managementSuffix) data

/-- The start of `mgt->data`. -/
def mgtData : Nat := managementSuffix + ManagementTlv.data

/-! ## Responses -/

/-- `port_management_error`, for a port with an identity. -/
def portManagementError (pid : PortIdentity) (ingress : PortRef) (req : Message)
    (errorId : ManagementErrorId) (s : Managing) : Managing :=
  let (allocated, s) := s.ask e
  if !allocated then s else
    let (appended, s) := s.ask e
    if !appended then s else s.respond ingress (errorMessage order s.clock pid ingress req errorId)

/-- `clock_management_send_error`. -/
def clockManagementSendError (p : PortRef) (msg : Message) (errorId : ManagementErrorId)
    (s : Managing) : Managing :=
  portManagementError order e (s.clock.port p).portIdentity p msg errorId s

/-- What `clock_management_get_response` and `port_management_get_response` have in common: the
reply of a port, filled and sent, if there is memory. -/
def getResponse (pid : PortIdentity) (ingress : PortRef) (req : Message)
    (fill : ManagedClock → Message → Option Message) (s : Managing) : Bool × Managing :=
  let (allocated, s) := s.ask e
  if !allocated then (false, s) else
    let rsp := portManagementReply order s.clock pid ingress req
    let (described, s) := s.ask e
    if !described then (false, s) else
      match fill s.clock rsp with
      | none => (false, s)
      | some rsp => (true, s.respond ingress rsp)

/-- `clock_management_get_response`. -/
def clockManagementGetResponse (p : PortRef) (id : Nat) (req : ManagementRequest) (s : Managing) :
    Bool × Managing :=
  getResponse order e (s.clock.port p).portIdentity p req.msg
    (fun c rsp => clockManagementFillResponse order c e.now p req rsp id) s

/-- `port_management_get_response`. -/
def portManagementGetResponse (target : Nat) (ingress : PortRef) (id : Nat) (req : Message)
    (s : Managing) : Bool × Managing :=
  getResponse order e (s.clock.port (.port target)).portIdentity ingress req
    (fun c rsp => portManagementFillResponse order c (c.port (.port target)) rsp id) s

/-! ## Setting -/

/-- `clock_update_subscription`. -/
def clockUpdateSubscription (req : ManagementRequest) (bitmask : List UInt8) (duration : Nat)
    (s : Managing) : Managing :=
  let c := s.clock
  let sender := octetsAt PtpHeader.sourcePortIdentity 10 req.msg.data
  let remove := bitmask.all (· = 0)
  match c.subscribers.findIdx? fun s => s.targetPortIdentity = sender with
  | some found =>
    if remove then { s with clock := { c with subscribers := c.subscribers.eraseIdx found } }
    else
      let subscribers := c.subscribers.modify found fun s =>
        { s with addr := req.address, events := bitmask, expiration := e.now + duration }
      { s with clock := { c with subscribers := subscribers } }
  | none =>
    if remove then s else
      let (allocated, s) := s.ask e
      if !allocated then s else
        let added : ClockSubscriber :=
          { events := bitmask, targetPortIdentity := sender, addr := req.address
            sequenceId := 0, expiration := e.now + duration }
        { s with clock := { c with subscribers := added :: c.subscribers } }

/-- A signed 16-bit number. -/
def signed16 (number : Nat) : Int := if number < 2 ^ 15 then number else number - 2 ^ 16

/-- The settings of GRANDMASTER_SETTINGS_NP. -/
def setGrandmaster (data : Storage) (c : ManagedClock) : ManagedClock :=
  { c with
    dds := writeOctets DefaultDS.clockQuality
      (octetsAt (mgtData + GrandmasterSettingsNp.clockQuality) 4 data) c.dds
    utcOffset := signed16 (load order (GrandmasterSettingsNp.utcOffset.shift mgtData) data)
    timeFlags := data (mgtData + GrandmasterSettingsNp.timeFlags)
    timeSource := data (mgtData + GrandmasterSettingsNp.timeSource) }

/-- The switch of `clock_management_set`, if it has a case for the identifier: whether the clock
changed, and the state. -/
def clockManagementStore (id : Nat) (req : ManagementRequest) (s : Managing) :
    Option (Bool × Managing) :=
  let data := req.msg.data
  let c := s.clock
  match MgmtId.ofCode id with
  | some .priority1 =>
    let dds := setOctet DefaultDS.priority1 (data mgtData) c.dds
    some (true, { s with clock := { c with dds := dds } })
  | some .priority2 =>
    let dds := setOctet DefaultDS.priority2 (data mgtData) c.dds
    some (true, { s with clock := { c with dds := dds } })
  | some .grandmasterSettingsNp => some (true, { s with clock := setGrandmaster order data c })
  | some .subscribeEventsNp =>
    let bitmask := octetsAt (mgtData + SubscribeEventsNp.bitmask) SubscribeEventsNp.bitmaskCnt data
    let duration := load order (SubscribeEventsNp.duration.shift mgtData) data
    some (false, clockUpdateSubscription e req bitmask duration s)
  | _ => none

/-- `clock_management_set`: whether it responds, whether the clock changed, and the state. -/
def clockManagementSet (p : PortRef) (id : Nat) (req : ManagementRequest) (s : Managing) :
    Bool × Bool × Managing :=
  match clockManagementStore order e id req s with
  | none => (false, false, s)
  | some (changed, s) => (true, changed, (clockManagementGetResponse order e p id req s).2)

/-- The switch of `port_management_set`, if it has a case for the identifier. -/
def portManagementStore (target : Nat) (id : Nat) (data : Storage) (c : ManagedClock) :
    Option ManagedClock :=
  match MgmtId.ofCode id with
  | some .portDataSetNp =>
    let thresh := load order (PortDsNp.neighborPropDelayThresh.shift mgtData) data
    some (c.withPort target fun port =>
      { port with neighborPropDelayThresh := UInt32.ofNat thresh })
  | _ => none

/-- `port_management_set`. -/
def portManagementSet (target : Nat) (ingress : PortRef) (id : Nat) (req : Message)
    (s : Managing) : Bool × Managing :=
  match portManagementStore order target id req.data s.clock with
  | none => (false, s)
  | some c =>
    (true, (portManagementGetResponse order e target ingress id req { s with clock := c }).2)

/-! ## Ports -/

/-- The identifiers that `port_manage` knows without supporting them. -/
def portKnows : MgmtId → Bool
  | .nullManagement | .clockDescription | .portDataSet | .logAnnounceInterval
  | .announceReceiptTimeout | .logSyncInterval | .versionNumber | .enablePort | .disablePort
  | .unicastNegotiationEnable | .unicastMasterTable | .unicastMasterMaxTableSize
  | .acceptableMasterTableEnabled | .alternateMaster | .transparentClockPortDataSet
  | .delayMechanism | .logMinPdelayReqInterval => true
  | _ => false

/-- The switch over the identifier in `port_manage`. -/
def portManageError (target : Nat) (ingress : PortRef) (req : Message) (s : Managing) :
    Int × Managing :=
  let pid := (s.clock.port (.port target)).portIdentity
  if (MgmtId.ofCode (mgtId order req.data)).any portKnows then
    (1, portManagementError order e pid ingress req .notSupported s)
  else (-1, portManagementError order e pid ingress req .noSuchId s)

/-- `port_manage`. -/
def portManage (p : Nat) (ingress : PortRef) (req : Message) (s : Managing) : Int × Managing :=
  let target := load order ManagementMsg.targetPortNumber req.data
  if target ≠ (s.clock.port (.port p)).portnum ∧ target ≠ 0xffff then (0, s) else
    let id := mgtId order req.data
    match managementAction req.data with
    | .get =>
      let (responded, s) := portManagementGetResponse order e p ingress id req s
      if responded then (1, s) else portManageError order e p ingress req s
    | .set =>
      let (responded, s) := portManagementSet order e p ingress id req s
      if responded then (1, s) else portManageError order e p ingress req s
    | .command => portManageError order e p ingress req s
    | .response | .acknowledge | .other => (-1, s)

/-- The loop over the ports in `clock_manage`: the number of answers, unless a port fails. -/
def portManageAll (ingress : PortRef) (req : Message) :
    List Nat → Nat → Managing → Option Nat × Managing
  | [], answers, s => (some answers, s)
  | p :: rest, answers, s =>
    let (res, s) := portManage order e p ingress req s
    if res < 0 then (none, s)
    else portManageAll ingress req rest (if 0 < res then answers + 1 else answers) s

/-! ## The clock -/

/-- The identifiers that belong to the clock: `clock_manage` does not ask the ports for them. -/
def clockOwns : MgmtId → Bool
  | .userDescription | .saveInNonVolatileStorage | .resetNonVolatileStorage | .initializeKey
  | .faultLog | .faultLogReset | .defaultDataSet | .currentDataSet | .parentDataSet
  | .timePropertiesDataSet | .priority1 | .priority2 | .domain | .slaveOnly | .time
  | .clockAccuracy | .utcProperties | .traceabilityProperties | .timescaleProperties
  | .pathTraceList | .pathTraceEnable | .grandmasterClusterTable | .acceptableMasterTable
  | .acceptableMasterMaxTableSize | .alternateTimeOffsetEnable | .alternateTimeOffsetName
  | .alternateTimeOffsetMaxKey | .alternateTimeOffsetProperties
  | .transparentClockDefaultDataSet | .primaryDomain | .timeStatusNp | .grandmasterSettingsNp
  | .subscribeEventsNp => true
  | _ => false

/-- The two switches over the identifier at the end of `clock_manage`. -/
def clockManageRest (p : PortRef) (req : Message) (s : Managing) : Managing :=
  let id := MgmtId.ofCode (mgtId order req.data)
  if id = some .portPropertiesNp ∧ p ≠ .uds then
    clockManagementSendError order e p req .notSupported s
  else if id.any clockOwns then clockManagementSendError order e p req .notSupported s
  else
    match portManageAll order e p req (List.range s.clock.ports.length) 0 s with
    | (none, s) => s
    | (some answers, s) =>
      if answers = 0 then clockManagementSendError order e p req .wrongValue s else s

/-- `clock_manage` after the message was forwarded: whether the clock changed, and the state. -/
def clockManageLocal (p : PortRef) (req : ManagementRequest) (s : Managing) : Bool × Managing :=
  let data := req.msg.data
  let tcid := octetsAt ManagementMsg.targetPortIdentity ClockIdentity.size data
  let mine := octetsAt DefaultDS.clockIdentity ClockIdentity.size s.clock.dds
  if tcid ≠ List.replicate ClockIdentity.size 0xff ∧ tcid ≠ mine then (false, s)
  else if req.msg.tlvCount ≠ 1 then (false, s)
  else
    let id := mgtId order data
    match managementAction data with
    | .get =>
      let (responded, s) := clockManagementGetResponse order e p id req s
      if responded then (false, s) else (false, clockManageRest order e p req.msg s)
    | .set =>
      if mgtLength order data = 2 ∧ id ≠ MgmtId.nullManagement.code then
        (false, clockManagementSendError order e p req.msg .wrongLength s)
      else if p ≠ .uds then (false, clockManagementSendError order e p req.msg .notSupported s)
      else
        let (responded, changed, s) := clockManagementSet order e p id req s
        if responded then (changed, s) else (changed, clockManageRest order e p req.msg s)
    | .command => (false, clockManageRest order e p req.msg s)
    | .response | .acknowledge | .other => (false, s)

/-- `clock_manage`: what it returns, the state with the responses, and the frames that were passed
on. -/
def clockManage (p : PortRef) (req : ManagementRequest) (c : ManagedClock) :
    Int × Managing × List Frame :=
  let (msg, frames) := clockForwardMgmtMsg order e.now c.forwardClock p req.msg
  let (changed, s) := clockManageLocal order e p { req with msg := msg } { clock := c }
  (if changed then 1 else 0, s, frames)

end Handling

/-! ## Runs -/

/-- A management message that arrives at a port. -/
structure Arrival where
  port : PortRef
  req : ManagementRequest
  surroundings : Surroundings

/-- Messages are handled one after another: what `clock_manage` returns each time, and the clock in
the end. -/
def serve (order : ByteOrder) : List Arrival → ManagedClock → List Int × ManagedClock
  | [], c => ([], c)
  | arrival :: rest, c =>
    let (changed, s, _) := clockManage order arrival.surroundings arrival.port arrival.req c
    let (results, c) := serve order rest s.clock
    (changed :: results, c)

end LinuxPtp.Management
