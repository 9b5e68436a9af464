import LinuxPtp.ManagementState

/-!
# Answers to management messages

A response is constructed from the request and filled with the TLV that was asked for. The data of
a TLV and the length that is claimed for them are determined separately, as in the source.
-/

namespace LinuxPtp

open Octets

section Replies

variable (order : ByteOrder)

/-! ## The message -/

/-- `port_management_construct`. -/
def portManagementConstruct (c : ManagedClock) (pid : PortIdentity) (ingress : PortRef)
    (sequenceId : Nat) (targetPortIdentity : Option (List UInt8)) (boundaryHops : UInt8)
    (action : ManagementAction) : Message :=
  let data : Storage := fun _ => 0
  let data := setOctet PtpHeader.tsmt (0xD ||| (c.port ingress).transportSpecific) data
  let data := setOctet PtpHeader.ver (UInt8.ofNat ptpVersion) data
  let data := store order PtpHeader.messageLength ManagementMsg.size data
  let data := setOctet PtpHeader.domainNumber (c.dds DefaultDS.domainNumber) data
  let data := writeOctets PtpHeader.sourcePortIdentity (pid.octets order) data
  let data := store order PtpHeader.sequenceId sequenceId data
  let data := setOctet PtpHeader.control 4 data
  let data := setOctet PtpHeader.logMessageInterval 0x7f data
  let data := match targetPortIdentity with
    | some target => writeOctets ManagementMsg.targetPortIdentity target data
    | none => data
  let data := setOctet ManagementMsg.startingBoundaryHops boundaryHops data
  let data := setOctet ManagementMsg.boundaryHops boundaryHops data
  let data := match action with
    | .get | .set => setOctet ManagementMsg.flags 2 data
    | .command => setOctet ManagementMsg.flags 4 data
    | .response | .acknowledge | .other => data
  Message.fresh data

/-- `port_management_reply`. -/
def portManagementReply (c : ManagedClock) (pid : PortIdentity) (ingress : PortRef)
    (req : Message) : Message :=
  let boundaryHops :=
    req.data ManagementMsg.startingBoundaryHops - req.data ManagementMsg.boundaryHops
  portManagementConstruct order c pid ingress (load order PtpHeader.sequenceId req.data)
    (some (octetsAt PtpHeader.sourcePortIdentity 10 req.data)) boundaryHops
    (managementAction req.data)

/-- `port_management_notify`. -/
def portManagementNotify (c : ManagedClock) (pid : PortIdentity) (port : PortRef) : Message :=
  portManagementConstruct order c pid port 0 none 1 .get

/-! ## The data -/

/-- What is written behind the head of a TLV, how much of it is claimed, and where the parts of a
description are. -/
structure ResponseData where
  octets : List UInt8
  datalen : Nat
  cd : MgmtClockDescription := {}

/-- What follows the switch of the two functions that fill a response: the TLV gets its head, an
even length and a descriptor. -/
def finishResponse (rsp : Message) (id : Nat) (body : ResponseData) : Message :=
  let tlv := ManagementMsg.size
  let start := tlv + ManagementTlv.data
  let data := store order (Tlv.type.shift tlv) 0x0001 rsp.data
  let data := store order (ManagementTlv.id.shift tlv) id data
  let data := writeOctets start body.octets data
  let (data, datalen) :=
    if body.datalen % 2 = 1 then (setOctet (start + body.datalen) 0 data, body.datalen + 1)
    else (data, body.datalen)
  let data := store order (Tlv.length.shift tlv) (ManagementTlv.id.width + datalen) data
  let messageLength := load order PtpHeader.messageLength data
  let data := store order PtpHeader.messageLength (messageLength + (ManagementTlv.size + datalen)) data
  { rsp with
    data := data
    tlvList := rsp.tlvList ++ [{ tlv := tlv, cd := body.cd }]
    tlvCount := rsp.tlvCount + 1 }

/-- The octets of a `struct PTPText`. -/
def ptpText (text : List UInt8) : List UInt8 := UInt8.ofNat text.length :: text

/-- A `struct management_tlv_datum`. -/
def managementTlvDatum (val : UInt8) : ResponseData := ⟨[val], 2, {}⟩

/-- A data set that is copied as a whole. -/
def copyOf (size : Nat) (ds : Storage) : ResponseData := ⟨octetsAt 0 size ds, size, {}⟩

/-- `clock_get_subscription`: the bit mask and the duration. -/
def clockGetSubscription (c : ManagedClock) (now : Int) (req : ManagementRequest) :
    List UInt8 × Nat :=
  let sender := octetsAt PtpHeader.sourcePortIdentity 10 req.msg.data
  match c.subscribers.find? fun s => s.targetPortIdentity = sender with
  | some s =>
    (s.events, if s.expiration < now then 0 else ((s.expiration - now) % 2 ^ 16).toNat)
  | none => (List.replicate SubscribeEventsNp.bitmaskCnt 0, 0)

/-- A `struct subscribe_events_np`. -/
def subscribeEventsNp (bitmask : List UInt8) (duration : Nat) : List UInt8 :=
  image order 2 duration ++ bitmask

/-- `gmPresent`. -/
def gmPresent (c : ManagedClock) : Nat :=
  if octetsAt ParentDS.grandmasterIdentity 8 c.pds = octetsAt DefaultDS.clockIdentity 8 c.dds then 0
  else 1

/-- A `struct time_status_np`. -/
def timeStatusNp (c : ManagedClock) : List UInt8 :=
  image order 8 c.masterOffset.toNat ++ image order 8 c.ingressTs.toNat ++
    image order 4 c.scaledRateOffset.toNat ++
    octetsAt TimeStatusNp.scaledLastGmPhaseChange.offset 4 c.status ++
    octetsAt TimeStatusNp.gmTimeBaseIndicator.offset 2 c.status ++
    octetsAt TimeStatusNp.lastGmPhaseChange ScaledNs.size c.status ++
    image order 4 (gmPresent c) ++ octetsAt ParentDS.grandmasterIdentity 8 c.pds

/-- A `struct grandmaster_settings_np`. -/
def grandmasterSettingsNp (c : ManagedClock) : List UInt8 :=
  octetsAt DefaultDS.clockQuality 4 c.dds ++ image order 2 (c.utcOffset % 2 ^ 16).toNat ++
    [c.timeFlags, c.timeSource]

/-- `DDS_SLAVE_ONLY`. -/
def ddsSlaveOnly : UInt8 := 2

/-- `FREQ_TRACEABLE`. -/
def freqTraceable : UInt8 := 32

/-- The switch of `clock_management_fill_response`. -/
def clockResponseData (c : ManagedClock) (now : Int) (p : PortRef) (req : ManagementRequest)
    (id : Nat) : Option ResponseData :=
  match MgmtId.ofCode id with
  | some .userDescription =>
    let text := c.desc.userDescription.text
    some ⟨ptpText text, 1 + text.length, {}⟩
  | some .defaultDataSet => some (copyOf DefaultDS.size c.dds)
  | some .currentDataSet => some (copyOf CurrentDS.size c.cur)
  | some .parentDataSet => some (copyOf ParentDS.size c.pds)
  | some .timePropertiesDataSet => some (copyOf TimePropertiesDS.size c.tds)
  | some .priority1 => some (managementTlvDatum (c.dds DefaultDS.priority1))
  | some .priority2 => some (managementTlvDatum (c.dds DefaultDS.priority2))
  | some .domain => some (managementTlvDatum (c.dds DefaultDS.domainNumber))
  | some .slaveOnly => some (managementTlvDatum (c.dds 0 &&& ddsSlaveOnly))
  | some .clockAccuracy => some (managementTlvDatum (c.dds DefaultDS.clockAccuracy))
  | some .traceabilityProperties =>
    some (managementTlvDatum (c.tds TimePropertiesDS.flags &&& (timeTraceable ||| freqTraceable)))
  | some .timescaleProperties =>
    some (managementTlvDatum (c.tds TimePropertiesDS.flags &&& ptpTimescale))
  | some .timeStatusNp => some ⟨timeStatusNp order c, TimeStatusNp.size, {}⟩
  | some .grandmasterSettingsNp =>
    some ⟨grandmasterSettingsNp order c, GrandmasterSettingsNp.size, {}⟩
  | some .subscribeEventsNp =>
    if p ≠ .uds then some ⟨[], 0, {}⟩ else
      -- the data are written, but their length is not counted
      let (bitmask, duration) := clockGetSubscription c now req
      some ⟨subscribeEventsNp order bitmask duration, 0, {}⟩
  | _ => none

/-- `clock_management_fill_response`. -/
def clockManagementFillResponse (c : ManagedClock) (now : Int) (p : PortRef)
    (req : ManagementRequest) (rsp : Message) (id : Nat) : Option Message :=
  (clockResponseData order c now p req id).map (finishResponse order rsp id)

/-- The state that is reported for a port. -/
def reportedState (state : PortState) : PortState :=
  if state = .grandMaster then .master else state

/-- The delay mechanism that is reported for a port. -/
def reportedMechanism (mechanism : DelayMechanism) : DelayMechanism :=
  if mechanism = .auto then .e2e else mechanism

/-- A `struct portDS`. -/
def portDS (target : ManagedPort) : List UInt8 :=
  target.portIdentity.octets order ++
    [(reportedState target.state).code, target.logMinDelayReqInterval] ++
    image order 8 target.peerMeanPathDelay.toNat ++
    [target.logAnnounceInterval, target.announceReceiptTimeout, target.logSyncInterval,
      (reportedMechanism target.delayMechanism).code, target.logMinPdelayReqInterval,
      target.versionNumber]

/-- A `struct port_ds_np`. -/
def portDsNp (target : ManagedPort) : List UInt8 :=
  image order 4 target.neighborPropDelayThresh.toNat ++ image order 4 target.asCapable.toNat

/-- A `struct port_properties_np`, with the text behind it. -/
def portPropertiesNp (target : ManagedPort) : List UInt8 :=
  target.portIdentity.octets order ++
    [(reportedState target.state).code, target.timestamping.code] ++ ptpText target.tsLabel.text

/-- What is said of the physical layer: IEEE 802.3, or nothing. -/
def physicalLayerProtocol (target : ManagedPort) : List UInt8 :=
  match target.transportType with
  | .udpIpv4 | .udpIpv6 | .ieee8023 => [0x49, 0x45, 0x45, 0x45, 0x20, 0x38, 0x30, 0x32, 0x2e, 0x33]
  | .uds => []

/-- `profile_id_p2p` and `profile_id_drr`. -/
def profileId (mechanism : DelayMechanism) : List UInt8 :=
  if mechanism = .p2p then [0x00, 0x1B, 0x19, 0x00, 0x02, 0x00]
  else [0x00, 0x1B, 0x19, 0x00, 0x01, 0x00]

/-- The data of CLOCK_DESCRIPTION. -/
def clockDescriptionData (c : ManagedClock) (target : ManagedPort) : ResponseData :=
  let start := ManagementMsg.size + ManagementTlv.data
  let layer := physicalLayerProtocol target
  let physical := target.physicalAddr.octets
  let protocol := target.protocolAddr.octets
  let product := c.desc.productDescription.text
  let revision := c.desc.revisionData.text
  let user := c.desc.userDescription.text
  let layerAt := start + 2
  let physicalAt := layerAt + (PTPText.size + layer.length)
  let protocolAt := physicalAt + (PhysicalAddress.size + physical.length)
  let manufacturerAt := protocolAt + (PortAddress.size + protocol.length)
  let productAt := manufacturerAt + ouiLen + 1
  let revisionAt := productAt + (PTPText.size + product.length)
  let userAt := revisionAt + (PTPText.size + revision.length)
  let profileAt := userAt + (PTPText.size + user.length)
  { octets :=
      image order 2 c.type.code ++ ptpText layer ++
      image order 2 physical.length ++ physical ++
      image order 2 target.transportType.code ++ image order 2 protocol.length ++ protocol ++
      c.desc.manufacturerIdentity.toList ++ [0] ++
      ptpText product ++ ptpText revision ++ ptpText user ++ profileId target.delayMechanism
    datalen := profileAt + profileIdLen - start
    -- profileIdentity is not set
    cd :=
      { clockType := some start
        physicalLayerProtocol := some layerAt
        physicalAddress := some physicalAt
        protocolAddress := some protocolAt
        manufacturerIdentity := some manufacturerAt
        productDescription := some productAt
        revisionData := some revisionAt
        userDescription := some userAt } }

/-- The switch of `port_management_fill_response`. -/
def portResponseData (c : ManagedClock) (target : ManagedPort) (id : Nat) : Option ResponseData :=
  match MgmtId.ofCode id with
  | some .nullManagement => some ⟨[], 0, {}⟩
  | some .clockDescription => some (clockDescriptionData order c target)
  | some .portDataSet => some ⟨portDS order target, PortDS.size, {}⟩
  | some .logAnnounceInterval => some (managementTlvDatum target.logAnnounceInterval)
  | some .announceReceiptTimeout => some (managementTlvDatum target.announceReceiptTimeout)
  | some .logSyncInterval => some (managementTlvDatum target.logSyncInterval)
  | some .versionNumber => some (managementTlvDatum target.versionNumber)
  | some .delayMechanism => some (managementTlvDatum (reportedMechanism target.delayMechanism).code)
  | some .logMinPdelayReqInterval => some (managementTlvDatum target.logMinPdelayReqInterval)
  | some .portDataSetNp => some ⟨portDsNp order target, PortDsNp.size, {}⟩
  | some .portPropertiesNp =>
    some ⟨portPropertiesNp order target, PortPropertiesNp.size + target.tsLabel.text.length, {}⟩
  | _ => none

/-- `port_management_fill_response`. -/
def portManagementFillResponse (c : ManagedClock) (target : ManagedPort) (rsp : Message)
    (id : Nat) : Option Message :=
  (portResponseData order c target id).map (finishResponse order rsp id)

/-! ## Errors -/

/-- The message of `port_management_error`. -/
def errorMessage (c : ManagedClock) (pid : PortIdentity) (ingress : PortRef) (req : Message)
    (errorId : ManagementErrorId) : Message :=
  let tlv := ManagementMsg.size
  let msg := portManagementReply order c pid ingress req
  let messageLength := load order PtpHeader.messageLength msg.data
  let data := store order PtpHeader.messageLength (messageLength + ManagementErrorStatus.size) msg.data
  let data := store order (Tlv.type.shift tlv) 0x0002 data
  let data := store order (Tlv.length.shift tlv) 8 data
  let data := store order (ManagementErrorStatus.error.shift tlv) errorId.code data
  let data := store order (ManagementErrorStatus.id.shift tlv)
    (load order (ManagementTlv.id.shift tlv) req.data) data
  { msg with data := data, tlvList := [{ tlv := tlv }], tlvCount := 1 }

end Replies

end LinuxPtp
