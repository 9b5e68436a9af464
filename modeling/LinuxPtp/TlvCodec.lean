import LinuxPtp.Receive

/-!
# Converting TLVs between host and network order

The receive and send halves of `tlv.c`. Each half walks a TLV with its own
switch over types, management ids and organization subtypes; nothing here
assumes that the two agree. Receiving also checks lengths and records pointers
into variable-length values, sending relies on those recorded pointers.

`goto bad_length` is `require`. Types and ids without a case of their own share
one constructor, since both switches leave their values alone.
-/

namespace LinuxPtp

open Octets Recv

/-- The TLV types one of the two switches treats. -/
inductive TlvType where
  | management
  | managementErrorStatus
  | organizationExtension
  | pathTrace
  | ptpmonReq
  | ptpmonResp
  | other
deriving DecidableEq, Repr

def TlvType.ofCode : Nat → TlvType
  | 0x0001 => .management
  | 0x0002 => .managementErrorStatus
  | 0x0003 => .organizationExtension
  | 0x0008 => .pathTrace
  | 0x21FE => .ptpmonReq
  | 0x21FF => .ptpmonResp
  | _ => .other

/-- The management ids one of the two switches treats. -/
inductive ManagementId where
  | clockDescription
  | userDescription
  | saveInNonVolatileStorage
  | resetNonVolatileStorage
  | initializeKey
  | faultLogReset
  | defaultDataSet
  | currentDataSet
  | parentDataSet
  | timePropertiesDataSet
  | portDataSet
  | enablePort
  | disablePort
  | timeStatusNp
  | grandmasterSettingsNp
  | portDataSetNp
  | subscribeEventsNp
  | portPropertiesNp
  | other
deriving DecidableEq, Repr

def ManagementId.ofCode : Nat → ManagementId
  | 0x0001 => .clockDescription
  | 0x0002 => .userDescription
  | 0x0003 => .saveInNonVolatileStorage
  | 0x0004 => .resetNonVolatileStorage
  | 0x0005 => .initializeKey
  | 0x0007 => .faultLogReset
  | 0x2000 => .defaultDataSet
  | 0x2001 => .currentDataSet
  | 0x2002 => .parentDataSet
  | 0x2003 => .timePropertiesDataSet
  | 0x2004 => .portDataSet
  | 0x200D => .enablePort
  | 0x200E => .disablePort
  | 0xC000 => .timeStatusNp
  | 0xC001 => .grandmasterSettingsNp
  | 0xC002 => .portDataSetNp
  | 0xC003 => .subscribeEventsNp
  | 0xC004 => .portPropertiesNp
  | _ => .other

/-- `IEEE_802_1_COMMITTEE`. -/
def ieee8021Id : Nat × Nat × Nat := (0x00, 0x80, 0xC2)

/-- The address length a network protocol of `enum transport_type` demands. -/
def expectedAddressLength : Nat → Option Nat
  | 1 => some 4
  | 2 => some 16
  | 3 => some 6
  | _ => none

/-- `if (!condition) goto bad_length`. -/
def Recv.require (condition : Prop) [Decidable condition] : Recv Unit :=
  if condition then pure () else throw .ebadmsg

section Codec

variable (order : ByteOrder)

/-! ## Receiving -/

/-- `scaled_ns_n2h`. The least significant part is overwritten with the swapped
most significant one, as in the source. -/
def scaledNsN2h (base : Nat) : Recv Unit := do
  ntoh order (ScaledNs.nanosecondsMsb.shift base)
  let msb ← host order (ScaledNs.nanosecondsMsb.shift base)
  let lsb := ScaledNs.nanosecondsLsb.shift base
  access lsb (store order lsb (swap order 8 msb))
  ntoh order (ScaledNs.fractionalNanoseconds.shift base)

/-- Advance the pointer over a member and fail when the data ends before it. -/
def advance (buf : Nat) (len : Int) (size : Nat) : Recv (Nat × Int) := do
  require (0 ≤ len - size)
  pure (buf + size, len - size)

/-- The `TLV_CLOCK_DESCRIPTION` case of `mgt_post_recv`; the second component of
the result is `extra_len`. -/
def clockDescriptionPostRecv (data dataLen : Nat) : Recv (MgmtClockDescription × Nat) := do
  let clockType := data
  let (buf, len) ← advance data dataLen 2
  let _ ← flip16 order clockType

  let physicalLayerProtocol := buf
  let (buf, len) ← advance buf len PTPText.size
  let textLength ← octet physicalLayerProtocol
  let (buf, len) ← advance buf len textLength

  let physicalAddress := buf
  let (buf, len) ← advance buf len PhysicalAddress.size
  let u16 ← flip16 order (PhysicalAddress.length.shift physicalAddress).offset
  require (u16 ≤ transportAddrLen)
  let (buf, len) ← advance buf len u16

  let protocolAddress := buf
  let (buf, len) ← advance buf len PortAddress.size
  let _ ← flip16 order (PortAddress.networkProtocol.shift protocolAddress).offset
  let u16 ← flip16 order (PortAddress.addressLength.shift protocolAddress).offset
  require (u16 ≤ transportAddrLen)
  let (buf, len) ← advance buf len u16

  let manufacturerIdentity := buf
  let (buf, len) ← advance buf len (ouiLen + 1)

  let productDescription := buf
  let (buf, len) ← advance buf len PTPText.size
  let textLength ← octet productDescription
  let (buf, len) ← advance buf len textLength

  let revisionData := buf
  let (buf, len) ← advance buf len PTPText.size
  let textLength ← octet revisionData
  let (buf, len) ← advance buf len textLength

  let userDescription := buf
  let (buf, len) ← advance buf len PTPText.size
  let textLength ← octet userDescription
  let (buf, len) ← advance buf len textLength

  let profileIdentity := buf
  let (buf, _) ← advance buf len profileIdLen

  pure ({
    clockType := some clockType
    physicalLayerProtocol := some physicalLayerProtocol
    physicalAddress := some physicalAddress
    protocolAddress := some protocolAddress
    manufacturerIdentity := some manufacturerIdentity
    productDescription := some productDescription
    revisionData := some revisionData
    userDescription := some userDescription
    profileIdentity := some profileIdentity }, buf - data)

/-- A case of `mgt_post_recv` for a data set of one size: check it, then convert
its fields. -/
def dataSetPostRecv (data dataLen size : Nat) (fields : List Field) : Recv Unit := do
  require (dataLen = size)
  ntohAll order data fields

/-- The check after the switch of `mgt_post_recv`, for ids whose length depends
on the data. -/
def checkExtraLen (m extraLen : Nat) : Recv Unit :=
  if extraLen ≠ 0 then do
    let length ← host order (Tlv.length.shift m)
    require (extraLen + extraLen % 2 + ManagementTlv.id.width = length)
  else pure ()

/-- `mgt_post_recv`. -/
def mgtPostRecv (m dataLen : Nat) (extra : TlvExtra) : Recv TlvExtra := do
  let id ← host order (ManagementTlv.id.shift m)
  let data := m + ManagementTlv.data
  match ManagementId.ofCode id with
  | .clockDescription => do
    let (cd, extraLen) ← clockDescriptionPostRecv order data dataLen
    checkExtraLen order m extraLen
    pure { extra with cd := cd }
  | .userDescription => do
    require (PTPText.size ≤ dataLen)
    let textLength ← octet data
    checkExtraLen order m (PTPText.size + textLength)
    pure { extra with cd := { extra.cd with userDescription := some data } }
  | .defaultDataSet => do
    dataSetPostRecv order data dataLen DefaultDS.size
      [DefaultDS.numberPorts, DefaultDS.offsetScaledLogVariance]
    pure extra
  | .currentDataSet => do
    dataSetPostRecv order data dataLen CurrentDS.size
      [CurrentDS.stepsRemoved, CurrentDS.offsetFromMaster, CurrentDS.meanPathDelay]
    pure extra
  | .parentDataSet => do
    dataSetPostRecv order data dataLen ParentDS.size
      [ParentDS.parentPortNumber, ParentDS.observedParentOffsetScaledLogVariance,
       ParentDS.observedParentClockPhaseChangeRate, ParentDS.grandmasterOffsetScaledLogVariance]
    pure extra
  | .timePropertiesDataSet => do
    dataSetPostRecv order data dataLen TimePropertiesDS.size [TimePropertiesDS.currentUtcOffset]
    pure extra
  | .portDataSet => do
    dataSetPostRecv order data dataLen PortDS.size
      [PortDS.portNumber, PortDS.peerMeanPathDelay]
    pure extra
  | .timeStatusNp => do
    dataSetPostRecv order data dataLen TimeStatusNp.size
      [TimeStatusNp.masterOffset, TimeStatusNp.ingressTime,
       TimeStatusNp.cumulativeScaledRateOffset, TimeStatusNp.scaledLastGmPhaseChange,
       TimeStatusNp.gmTimeBaseIndicator]
    scaledNsN2h order (data + TimeStatusNp.lastGmPhaseChange)
    ntoh order (TimeStatusNp.gmPresent.shift data)
    pure extra
  | .grandmasterSettingsNp => do
    dataSetPostRecv order data dataLen GrandmasterSettingsNp.size
      [GrandmasterSettingsNp.offsetScaledLogVariance, GrandmasterSettingsNp.utcOffset]
    pure extra
  | .portDataSetNp => do
    dataSetPostRecv order data dataLen PortDsNp.size
      [PortDsNp.neighborPropDelayThresh, PortDsNp.asCapable]
    pure extra
  | .subscribeEventsNp => do
    dataSetPostRecv order data dataLen SubscribeEventsNp.size [SubscribeEventsNp.duration]
    pure extra
  | .portPropertiesNp => do
    require (PortPropertiesNp.size ≤ dataLen)
    ntoh order (PortPropertiesNp.portNumber.shift data)
    let textLength ← octet (data + PortPropertiesNp.interfaceLength)
    checkExtraLen order m (PortPropertiesNp.size + textLength)
    pure extra
  | .saveInNonVolatileStorage | .resetNonVolatileStorage | .initializeKey | .faultLogReset
  | .enablePort | .disablePort => do
    require (dataLen = 0)
    pure extra
  | .other => pure extra

/-- The fields of a PTPMON_RESP foot that both directions convert, in the order
of the source. -/
def nsmRespFootFields : List Field :=
  [ParentDS.parentPortNumber, ParentDS.observedParentOffsetScaledLogVariance,
   ParentDS.observedParentClockPhaseChangeRate,
   ParentDS.grandmasterOffsetScaledLogVariance].map (·.shift NsmRespTlvFoot.parent) ++
  [CurrentDS.stepsRemoved, CurrentDS.offsetFromMaster,
   CurrentDS.meanPathDelay].map (·.shift NsmRespTlvFoot.current) ++
  [TimePropertiesDS.currentUtcOffset.shift NsmRespTlvFoot.timeprop] ++
  [NsmRespTlvFoot.lastsync.secondsLsb, NsmRespTlvFoot.lastsync.secondsMsb,
   NsmRespTlvFoot.lastsync.nanoseconds]

/-- `nsm_resp_post_recv`. -/
def nsmRespPostRecv (extra : TlvExtra) : Recv TlvExtra := do
  let tlv := extra.tlv
  let length ← host order (Tlv.length.shift tlv)
  require (NsmRespTlvHead.size + NsmRespTlvFoot.size - Tlv.size ≤ length)
  ntoh order (NsmRespTlvHead.networkProtocol.shift tlv)
  ntoh order (NsmRespTlvHead.addressLength.shift tlv)
  let networkProtocol ← host order (NsmRespTlvHead.networkProtocol.shift tlv)
  let addressLength ← host order (NsmRespTlvHead.addressLength.shift tlv)
  require (expectedAddressLength networkProtocol = some addressLength)
  let length ← host order (Tlv.length.shift tlv)
  require (length = NsmRespTlvHead.size + NsmRespTlvFoot.size + addressLength - Tlv.size)
  let foot := tlv + NsmRespTlvHead.size + addressLength
  ntohAll order foot nsmRespFootFields
  pure { extra with foot := some foot }

/-- `memcmp` with `ieee8021_id` and the two leading subtype octets, with the
last octet 1: the only organization subtype that is converted. -/
def isFollowUpInfo (org : Nat) : Recv Bool := do
  let id0 ← octet (org + OrganizationTlv.id)
  let id1 ← octet (org + OrganizationTlv.id + 1)
  let id2 ← octet (org + OrganizationTlv.id + 2)
  let subtype0 ← octet (org + OrganizationTlv.subtype)
  let subtype1 ← octet (org + OrganizationTlv.subtype + 1)
  let subtype2 ← octet (org + OrganizationTlv.subtype + 2)
  pure (decide ((id0, id1, id2) = ieee8021Id ∧ subtype0 = 0 ∧ subtype1 = 0 ∧ subtype2 = 1))

/-- `org_post_recv`. -/
def orgPostRecv (org : Nat) : Recv Unit := do
  let followUpInfo ← isFollowUpInfo org
  if followUpInfo then do
    let length ← host order (Tlv.length.shift org)
    require (length + Tlv.size = FollowUpInfoTlv.size)
    ntoh order (FollowUpInfoTlv.cumulativeScaledRateOffset.shift org)
    ntoh order (FollowUpInfoTlv.gmTimeBaseIndicator.shift org)
    scaledNsN2h order (org + FollowUpInfoTlv.lastGmPhaseChange)
    ntoh order (FollowUpInfoTlv.scaledLastGmPhaseChange.shift org)
  else pure ()

/-- `tlv_post_recv`. -/
def tlvPostRecv (extra : TlvExtra) : Recv TlvExtra := do
  let tlv := extra.tlv
  let type ← host order (Tlv.type.shift tlv)
  match TlvType.ofCode type with
  | .management => do
    let length ← host order (Tlv.length.shift tlv)
    require (ManagementTlv.size - Tlv.size ≤ length)
    ntoh order (ManagementTlv.id.shift tlv)
    if ManagementTlv.id.width < length then
      mgtPostRecv order tlv (length - ManagementTlv.id.width) extra
    else pure extra
  | .managementErrorStatus => do
    let length ← host order (Tlv.length.shift tlv)
    require (ManagementErrorStatus.size - Tlv.size ≤ length)
    ntoh order (ManagementErrorStatus.error.shift tlv)
    ntoh order (ManagementErrorStatus.id.shift tlv)
    pure extra
  | .organizationExtension => do
    let length ← host order (Tlv.length.shift tlv)
    require (OrganizationTlv.size - Tlv.size ≤ length)
    orgPostRecv order tlv
    pure extra
  | .pathTrace => do
    let length ← host order (Tlv.length.shift tlv)
    if pathTraceMax < length / ClockIdentity.size then
      access (Tlv.length.shift tlv)
        (store order (Tlv.length.shift tlv) (pathTraceMax * ClockIdentity.size))
    pure extra
  | .ptpmonResp => nsmRespPostRecv order extra
  | .ptpmonReq | .other => pure extra

/-! ## Sending -/

/-- Convert fields of a record that starts at the supplied base. -/
def hton (base : Nat) (fields : List Field) (data : Storage) : Storage :=
  convertAll order (fields.map (·.shift base)) data

/-- `flip16` through a recorded pointer. -/
def flip16At (pointer : Option Nat) (offset : Nat) (data : Storage) : Storage :=
  match pointer with
  | some base => convert order ⟨base + offset, 2⟩ data
  | none => data

/-- `scaled_ns_h2n`. The least significant part is again overwritten with the
swapped most significant one. -/
def scaledNsH2n (base : Nat) (data : Storage) : Storage :=
  let data := convert order (ScaledNs.nanosecondsMsb.shift base) data
  let msb := load order (ScaledNs.nanosecondsMsb.shift base) data
  let data := store order (ScaledNs.nanosecondsLsb.shift base) (swap order 8 msb) data
  convert order (ScaledNs.fractionalNanoseconds.shift base) data

/-- `mgt_pre_send`. -/
def mgtPreSend (m : Nat) (extra : TlvExtra) (storage : Storage) : Storage :=
  let data := m + ManagementTlv.data
  match ManagementId.ofCode (load order (ManagementTlv.id.shift m) storage) with
  | .clockDescription =>
    let storage := flip16At order extra.cd.clockType 0 storage
    let storage := flip16At order extra.cd.physicalAddress
      PhysicalAddress.length.offset storage
    let storage := flip16At order extra.cd.protocolAddress
      PortAddress.networkProtocol.offset storage
    flip16At order extra.cd.protocolAddress PortAddress.addressLength.offset storage
  | .defaultDataSet => hton order data
      [DefaultDS.numberPorts, DefaultDS.offsetScaledLogVariance] storage
  | .currentDataSet => hton order data
      [CurrentDS.stepsRemoved, CurrentDS.offsetFromMaster, CurrentDS.meanPathDelay] storage
  | .parentDataSet => hton order data
      [ParentDS.parentPortNumber, ParentDS.observedParentOffsetScaledLogVariance,
       ParentDS.observedParentClockPhaseChangeRate,
       ParentDS.grandmasterOffsetScaledLogVariance] storage
  | .timePropertiesDataSet => hton order data [TimePropertiesDS.currentUtcOffset] storage
  | .portDataSet => hton order data [PortDS.portNumber, PortDS.peerMeanPathDelay] storage
  | .timeStatusNp =>
    let storage := hton order data
      [TimeStatusNp.masterOffset, TimeStatusNp.ingressTime,
       TimeStatusNp.cumulativeScaledRateOffset, TimeStatusNp.scaledLastGmPhaseChange,
       TimeStatusNp.gmTimeBaseIndicator] storage
    let storage := scaledNsH2n order (data + TimeStatusNp.lastGmPhaseChange) storage
    convert order (TimeStatusNp.gmPresent.shift data) storage
  | .grandmasterSettingsNp => hton order data
      [GrandmasterSettingsNp.offsetScaledLogVariance, GrandmasterSettingsNp.utcOffset] storage
  | .portDataSetNp => hton order data
      [PortDsNp.neighborPropDelayThresh, PortDsNp.asCapable] storage
  | .subscribeEventsNp => hton order data [SubscribeEventsNp.duration] storage
  | .portPropertiesNp => hton order data [PortPropertiesNp.portNumber] storage
  | .userDescription | .saveInNonVolatileStorage | .resetNonVolatileStorage | .initializeKey
  | .faultLogReset | .enablePort | .disablePort | .other => storage

/-- `nsm_resp_pre_send`. -/
def nsmRespPreSend (extra : TlvExtra) (storage : Storage) : Storage :=
  let storage := convert order (NsmRespTlvHead.networkProtocol.shift extra.tlv) storage
  let storage := convert order (NsmRespTlvHead.addressLength.shift extra.tlv) storage
  match extra.foot with
  | some foot => hton order foot nsmRespFootFields storage
  | none => storage

/-- The same tests as on reception, on a message about to be sent. -/
def followUpInfoAt (org : Nat) (data : Storage) : Bool :=
  decide (((data (org + OrganizationTlv.id)).toNat, (data (org + OrganizationTlv.id + 1)).toNat,
      (data (org + OrganizationTlv.id + 2)).toNat) = ieee8021Id ∧
    (data (org + OrganizationTlv.subtype)).toNat = 0 ∧
    (data (org + OrganizationTlv.subtype + 1)).toNat = 0 ∧
    (data (org + OrganizationTlv.subtype + 2)).toNat = 1)

/-- `org_pre_send`. -/
def orgPreSend (org : Nat) (data : Storage) : Storage :=
  if followUpInfoAt org data then
    let data := convert order (FollowUpInfoTlv.cumulativeScaledRateOffset.shift org) data
    let data := convert order (FollowUpInfoTlv.gmTimeBaseIndicator.shift org) data
    let data := scaledNsH2n order (org + FollowUpInfoTlv.lastGmPhaseChange) data
    convert order (FollowUpInfoTlv.scaledLastGmPhaseChange.shift org) data
  else data

/-- `tlv_pre_send`. -/
def tlvPreSend (extra : TlvExtra) (data : Storage) : Storage :=
  let tlv := extra.tlv
  match TlvType.ofCode (load order (Tlv.type.shift tlv) data) with
  | .management =>
    let data :=
      if ManagementTlv.id.width < load order (Tlv.length.shift tlv) data then
        mgtPreSend order tlv extra data
      else data
    convert order (ManagementTlv.id.shift tlv) data
  | .managementErrorStatus =>
    convert order (ManagementErrorStatus.id.shift tlv)
      (convert order (ManagementErrorStatus.error.shift tlv) data)
  | .organizationExtension => orgPreSend order tlv data
  | .ptpmonResp => nsmRespPreSend order extra data
  | .pathTrace | .ptpmonReq | .other => data

end Codec

end LinuxPtp
