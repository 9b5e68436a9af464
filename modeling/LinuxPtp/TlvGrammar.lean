import LinuxPtp.TlvCodec

/-!
# The grammar of TLVs

Which octets form a TLV is stated here without reference to parsing: a reading
gives the 16-bit numbers and the octets of a TLV relative to its start, and
`WellSized` compares the TLV's length with what its type, management id or
organization subtype and its own nested lengths demand. The same grammar reads
a TLV in network order and in host order.

A TLV's multi-octet fields, the position of its `ScaledNs` and the pointers into
it are further functions of the reading. They all look only at fields that are
listed and at octets inside the TLV that no field covers; `shape_stable` states
it, so that a conversion of the listed fields keeps the shape.
-/

namespace LinuxPtp

open Octets

/-- What a TLV shows relative to its first octet. -/
structure Reading where
  word : Nat → Nat
  octet : Nat → Nat

/-- Read the TLV at an offset in the supplied byte order. Network order is the
big-endian reading. -/
def readingAt (order : ByteOrder) (data : Storage) (start : Nat) : Reading where
  word position := load order ⟨start + position, 2⟩ data
  octet position := (data (start + position)).toNat

/-- Storages that agree from an offset on show the same TLV there. -/
theorem readingAt_congr (order : ByteOrder) {left right : Storage} {start : Nat}
    (same : ∀ index, start ≤ index → left index = right index) :
    readingAt order left start = readingAt order right start := by
  have words : (fun position => load order ⟨start + position, 2⟩ left) =
      fun position => load order ⟨start + position, 2⟩ right := by
    funext position
    exact load_congr order _ fun index inside => same index (Nat.le_trans (by simp) inside.1)
  have octets : (fun position => (left (start + position)).toNat) =
      fun position => (right (start + position)).toNat := by
    funext position
    rw [same _ (by omega)]
  simp only [readingAt, words, octets]

/-- Round up to an even number. -/
def evenUp (size : Nat) : Nat := size + size % 2

namespace Reading

variable (reading : Reading)

def type : TlvType := TlvType.ofCode (reading.word 0)
def length : Nat := reading.word 2
def managementId : ManagementId := ManagementId.ofCode (reading.word 4)

/-! ## Clock descriptions

The members follow one another, each starting where the text or address before
it ends. Offsets are relative to the TLV. -/

def physicalLayerProtocol : Nat := 8
def physicalAddress : Nat := 9 + reading.octet 8
def protocolAddress : Nat := reading.physicalAddress + 2 + reading.word reading.physicalAddress
def manufacturerIdentity : Nat :=
  reading.protocolAddress + 4 + reading.word (reading.protocolAddress + 2)
def productDescription : Nat := reading.manufacturerIdentity + 4
def revisionData : Nat :=
  reading.productDescription + 1 + reading.octet reading.productDescription
def userDescription : Nat := reading.revisionData + 1 + reading.octet reading.revisionData
def profileIdentity : Nat := reading.userDescription + 1 + reading.octet reading.userDescription
def descriptionStop : Nat := reading.profileIdentity + 6

/-! ## Sizes -/

/-- Data sets that have one size. -/
def dataSetSize : ManagementId → Option Nat
  | .defaultDataSet => some DefaultDS.size
  | .currentDataSet => some CurrentDS.size
  | .parentDataSet => some ParentDS.size
  | .timePropertiesDataSet => some TimePropertiesDS.size
  | .portDataSet => some PortDS.size
  | .timeStatusNp => some TimeStatusNp.size
  | .grandmasterSettingsNp => some GrandmasterSettingsNp.size
  | .portDataSetNp => some PortDsNp.size
  | .subscribeEventsNp => some SubscribeEventsNp.size
  | .saveInNonVolatileStorage | .resetNonVolatileStorage | .initializeKey | .faultLogReset
  | .enablePort | .disablePort => some 0
  | .clockDescription | .userDescription | .portPropertiesNp | .other => none

/-- A management TLV with data has the size its id demands. -/
def ManagementSized : Prop :=
  match reading.managementId with
  | .clockDescription =>
    reading.word reading.physicalAddress ≤ transportAddrLen ∧
    reading.word (reading.protocolAddress + 2) ≤ transportAddrLen ∧
    reading.length = 2 + evenUp (reading.descriptionStop - 6)
  | .userDescription => reading.length = 2 + evenUp (1 + reading.octet 6)
  | .portPropertiesNp => reading.length = 2 + evenUp (13 + reading.octet 18)
  | id => ∀ size, dataSetSize id = some size → reading.length = 2 + size

/-- The 802.1 organization and its follow-up information subtype. -/
def IsFollowUpInfo : Prop :=
  (reading.octet 4, reading.octet 5, reading.octet 6) = ieee8021Id ∧
  reading.octet 7 = 0 ∧ reading.octet 8 = 0 ∧ reading.octet 9 = 1

instance : Decidable reading.IsFollowUpInfo := inferInstanceAs (Decidable (_ ∧ _))

/-- A TLV has the size its type, id or subtype and its nested lengths demand. -/
def WellSized : Prop :=
  match reading.type with
  | .management => 2 ≤ reading.length ∧ (2 < reading.length → reading.ManagementSized)
  | .managementErrorStatus => 8 ≤ reading.length
  | .organizationExtension =>
    6 ≤ reading.length ∧ (reading.IsFollowUpInfo → reading.length = 28)
  | .ptpmonResp =>
    expectedAddressLength (reading.word 6) = some (reading.word 8) ∧
    reading.length = 70 + reading.word 8
  | .pathTrace | .ptpmonReq | .other => True

/-- A path longer than any Announce could carry. -/
def Overlong : Prop := reading.type = .pathTrace ∧ pathTraceMax < reading.length / 8

instance : Decidable reading.Overlong := inferInstanceAs (Decidable (_ ∧ _))

/-! ## Fields -/

/-- Multi-octet fields of a data set, relative to its data. The least significant
part of a `ScaledNs` is listed by `scaledNs` instead. -/
def dataSetFields : ManagementId → List Field
  | .defaultDataSet => [DefaultDS.numberPorts, DefaultDS.offsetScaledLogVariance]
  | .currentDataSet =>
    [CurrentDS.stepsRemoved, CurrentDS.offsetFromMaster, CurrentDS.meanPathDelay]
  | .parentDataSet =>
    [ParentDS.parentPortNumber, ParentDS.observedParentOffsetScaledLogVariance,
     ParentDS.observedParentClockPhaseChangeRate, ParentDS.grandmasterOffsetScaledLogVariance]
  | .timePropertiesDataSet => [TimePropertiesDS.currentUtcOffset]
  | .portDataSet => [PortDS.portNumber, PortDS.peerMeanPathDelay]
  | .timeStatusNp =>
    [TimeStatusNp.masterOffset, TimeStatusNp.ingressTime,
     TimeStatusNp.cumulativeScaledRateOffset, TimeStatusNp.scaledLastGmPhaseChange,
     TimeStatusNp.gmTimeBaseIndicator,
     ScaledNs.nanosecondsMsb.shift TimeStatusNp.lastGmPhaseChange,
     ScaledNs.fractionalNanoseconds.shift TimeStatusNp.lastGmPhaseChange,
     TimeStatusNp.gmPresent]
  | .grandmasterSettingsNp =>
    [GrandmasterSettingsNp.offsetScaledLogVariance, GrandmasterSettingsNp.utcOffset]
  | .portDataSetNp => [PortDsNp.neighborPropDelayThresh, PortDsNp.asCapable]
  | .subscribeEventsNp => [SubscribeEventsNp.duration]
  | .portPropertiesNp => [PortPropertiesNp.portNumber]
  | _ => []

def managementFields : List Field :=
  match reading.managementId with
  | .clockDescription =>
    [⟨6, 2⟩, ⟨reading.physicalAddress, 2⟩, ⟨reading.protocolAddress, 2⟩,
     ⟨reading.protocolAddress + 2, 2⟩]
  | id => (dataSetFields id).map (·.shift ManagementTlv.data)

/-- Follow-up information, without the least significant part of `ScaledNs`. -/
def followUpInfoFields : List Field :=
  [FollowUpInfoTlv.cumulativeScaledRateOffset, FollowUpInfoTlv.gmTimeBaseIndicator,
   ScaledNs.nanosecondsMsb.shift FollowUpInfoTlv.lastGmPhaseChange,
   ScaledNs.fractionalNanoseconds.shift FollowUpInfoTlv.lastGmPhaseChange,
   FollowUpInfoTlv.scaledLastGmPhaseChange]

def valueFields : List Field :=
  match reading.type with
  | .management =>
    ManagementTlv.id :: if 2 < reading.length then reading.managementFields else []
  | .managementErrorStatus => [ManagementErrorStatus.error, ManagementErrorStatus.id]
  | .organizationExtension => if reading.IsFollowUpInfo then followUpInfoFields else []
  | .ptpmonResp =>
    [NsmRespTlvHead.networkProtocol, NsmRespTlvHead.addressLength] ++
    nsmRespFootFields.map (·.shift (NsmRespTlvHead.size + reading.word 8))
  | .pathTrace | .ptpmonReq | .other => []

/-- Every multi-octet field that both directions convert as a number. -/
def fields : List Field := Tlv.type :: Tlv.length :: reading.valueFields

/-- Where the TLV carries a `ScaledNs`. -/
def scaledNs : Option Nat :=
  match reading.type with
  | .management =>
    if 2 < reading.length ∧ reading.managementId = .timeStatusNp then
      some (ManagementTlv.data + TimeStatusNp.lastGmPhaseChange)
    else none
  | .organizationExtension =>
    if reading.IsFollowUpInfo then some FollowUpInfoTlv.lastGmPhaseChange else none
  | _ => none

/-! ## Descriptors -/

/-- The pointers into a clock description that starts at the supplied TLV. -/
def clockDescription (start : Nat) : MgmtClockDescription where
  clockType := some (start + 6)
  physicalLayerProtocol := some (start + physicalLayerProtocol)
  physicalAddress := some (start + reading.physicalAddress)
  protocolAddress := some (start + reading.protocolAddress)
  manufacturerIdentity := some (start + reading.manufacturerIdentity)
  productDescription := some (start + reading.productDescription)
  revisionData := some (start + reading.revisionData)
  userDescription := some (start + reading.userDescription)
  profileIdentity := some (start + reading.profileIdentity)

/-- The descriptor of the TLV at an offset. -/
def descriptor (start : Nat) : TlvExtra :=
  match reading.type with
  | .management =>
    if 2 < reading.length then
      match reading.managementId with
      | .clockDescription => { tlv := start, cd := reading.clockDescription start }
      | .userDescription => { tlv := start, cd := { userDescription := some (start + 6) } }
      | _ => { tlv := start }
    else { tlv := start }
  | .ptpmonResp => { tlv := start, foot := some (start + NsmRespTlvHead.size + reading.word 8) }
  | _ => { tlv := start }

@[simp] theorem descriptor_tlv (start : Nat) : (reading.descriptor start).tlv = start := by
  unfold descriptor
  split
  · split
    · split <;> rfl
    · rfl
  · rfl
  · rfl

end Reading

end LinuxPtp
