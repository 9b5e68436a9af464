import LinuxPtp.ManagementReply
import LinuxPtp.PackedMembers
import LinuxPtp.TlvGrammar

/-!
# The values that are asked for

What a management identifier stands for in the state of a clock and of a port, as the members of
the structure that the TLV carries. The data that are written for a response are these members.
-/

namespace LinuxPtp.ManagementAnswers

open Octets

section Values

variable (order : ByteOrder)

/-! ## What the identifiers stand for -/

/-- A `struct PTPText`. -/
def textMembers (text : List UInt8) : List Member := [.number 1 text.length, .octets text]

/-- The value of a `struct management_tlv_datum`. -/
def datumMembers (val : UInt8) : List Member := [.octets [val]]

/-- A `struct PortIdentity`. -/
def identityMembers (identity : PortIdentity) : List Member :=
  [.octets identity.clockIdentity.toList, .number 2 identity.portNumber.toNat]

/-- The members of a `struct defaultDS`. -/
def defaultKinds : List Kind :=
  [.octets 1, .octets 1, .number 2, .octets 1, .octets 1, .octets 1, .number 2, .octets 1, .octets 8,
    .octets 1, .octets 1]

/-- The members of a `struct currentDS`. -/
def currentKinds : List Kind := [.number 2, .number 8, .number 8]

/-- The members of a `struct parentDS`. -/
def parentKinds : List Kind :=
  [.octets 8, .number 2, .octets 1, .octets 1, .number 2, .number 4, .octets 1, .octets 1, .octets 1,
    .number 2, .octets 1, .octets 8]

/-- The members of a `struct timePropertiesDS`. -/
def timePropertiesKinds : List Kind := [.number 2, .octets 1, .octets 1]

/-- The members of a `struct ClockQuality`. -/
def qualityKinds : List Kind := [.octets 1, .octets 1, .number 2]

/-- The members of a `struct time_status_np`. -/
def timeStatusMembers (c : ManagedClock) : List Member :=
  [.number 8 c.masterOffset.toNat, .number 8 c.ingressTs.toNat, .number 4 c.scaledRateOffset.toNat,
    .number 4 (load order TimeStatusNp.scaledLastGmPhaseChange c.status),
    .number 2 (load order TimeStatusNp.gmTimeBaseIndicator c.status),
    .spare (octetsAt TimeStatusNp.lastGmPhaseChange ScaledNs.size c.status),
    .number 4 (gmPresent c), .octets (octetsAt ParentDS.grandmasterIdentity 8 c.pds)]

/-- The members of a `struct grandmaster_settings_np`. -/
def settingsMembers (c : ManagedClock) : List Member :=
  membersOf order c.dds DefaultDS.clockQuality qualityKinds ++
    [.signed 2 c.utcOffset, .octets [c.timeFlags, c.timeSource]]

/-- The time that is left to a subscription. -/
def remaining (s : ClockSubscriber) (now : Int) : Nat := (s.expiration - now).toNat

/-- What is stored for a requester: its event mask and the time that is left. -/
def subscription (c : ManagedClock) (now : Int) (sender : List UInt8) : List UInt8 × Nat :=
  match c.subscribers.find? fun s => s.targetPortIdentity = sender with
  | some s => (s.events, remaining s now)
  | none => (List.replicate SubscribeEventsNp.bitmaskCnt 0, 0)

/-- The values of a clock. -/
def clockValues (c : ManagedClock) (now : Int) (p : PortRef) (req : ManagementRequest) :
    MgmtId → Option (List Member)
  | .userDescription => some (textMembers c.desc.userDescription.text)
  | .defaultDataSet => some (membersOf order c.dds 0 defaultKinds)
  | .currentDataSet => some (membersOf order c.cur 0 currentKinds)
  | .parentDataSet => some (membersOf order c.pds 0 parentKinds)
  | .timePropertiesDataSet => some (membersOf order c.tds 0 timePropertiesKinds)
  | .priority1 => some (datumMembers (c.dds DefaultDS.priority1))
  | .priority2 => some (datumMembers (c.dds DefaultDS.priority2))
  | .domain => some (datumMembers (c.dds DefaultDS.domainNumber))
  | .slaveOnly => some (datumMembers (c.dds 0 &&& ddsSlaveOnly))
  | .clockAccuracy => some (datumMembers (c.dds DefaultDS.clockAccuracy))
  | .traceabilityProperties =>
    some (datumMembers (c.tds TimePropertiesDS.flags &&& (timeTraceable ||| freqTraceable)))
  | .timescaleProperties => some (datumMembers (c.tds TimePropertiesDS.flags &&& ptpTimescale))
  | .timeStatusNp => some (timeStatusMembers order c)
  | .grandmasterSettingsNp => some (settingsMembers order c)
  | .subscribeEventsNp =>
    if p = .uds then
      let (events, duration) :=
        subscription c now (octetsAt PtpHeader.sourcePortIdentity 10 req.msg.data)
      some [.number 2 duration, .octets events]
    else some []
  | _ => none

/-- The members of a clock description. -/
def descriptionMembers (c : ManagedClock) (target : ManagedPort) : List Member :=
  [.number 2 c.type.code] ++ textMembers (physicalLayerProtocol target) ++
    [.number 2 target.physicalAddr.octets.length, .octets target.physicalAddr.octets] ++
    [.number 2 target.transportType.code, .number 2 target.protocolAddr.octets.length,
      .octets target.protocolAddr.octets] ++
    [.octets c.desc.manufacturerIdentity.toList, .octets [0]] ++
    textMembers c.desc.productDescription.text ++ textMembers c.desc.revisionData.text ++
    textMembers c.desc.userDescription.text ++ [.octets (profileId target.delayMechanism)]

/-- The members of a `struct portDS`. -/
def portMembers (target : ManagedPort) : List Member :=
  identityMembers target.portIdentity ++
    [.octets [(reportedState target.state).code], .octets [target.logMinDelayReqInterval],
      .number 8 target.peerMeanPathDelay.toNat, .octets [target.logAnnounceInterval],
      .octets [target.announceReceiptTimeout], .octets [target.logSyncInterval],
      .octets [(reportedMechanism target.delayMechanism).code],
      .octets [target.logMinPdelayReqInterval], .octets [target.versionNumber]]

/-- The members of a `struct port_properties_np`. -/
def propertiesMembers (target : ManagedPort) : List Member :=
  identityMembers target.portIdentity ++
    [.octets [(reportedState target.state).code], .octets [target.timestamping.code]] ++
    textMembers target.tsLabel.text

/-- The values of a port. -/
def portValues (c : ManagedClock) (target : ManagedPort) : MgmtId → Option (List Member)
  | .nullManagement => some []
  | .clockDescription => some (descriptionMembers c target)
  | .portDataSet => some (portMembers target)
  | .logAnnounceInterval => some (datumMembers target.logAnnounceInterval)
  | .announceReceiptTimeout => some (datumMembers target.announceReceiptTimeout)
  | .logSyncInterval => some (datumMembers target.logSyncInterval)
  | .versionNumber => some (datumMembers target.versionNumber)
  | .delayMechanism => some (datumMembers (reportedMechanism target.delayMechanism).code)
  | .logMinPdelayReqInterval => some (datumMembers target.logMinPdelayReqInterval)
  | .portDataSetNp => some
    [.number 4 target.neighborPropDelayThresh.toNat, .number 4 target.asCapable.toNat]
  | .portPropertiesNp => some (propertiesMembers target)
  | _ => none

/-- Where a member of the data starts in a message. -/
def memberAt (members : List Member) (before : Nat) : Option Nat :=
  some (ManagementMsg.size + ManagementTlv.data + room (members.take before))

/-- What the descriptor of a received TLV points to. -/
def pointers (id : MgmtId) (members : List Member) : MgmtClockDescription :=
  match id with
  | .clockDescription =>
    { clockType := memberAt members 0
      physicalLayerProtocol := memberAt members 1
      physicalAddress := memberAt members 3
      protocolAddress := memberAt members 5
      manufacturerIdentity := memberAt members 8
      productDescription := memberAt members 10
      revisionData := memberAt members 12
      userDescription := memberAt members 14
      profileIdentity := memberAt members 16 }
  | .userDescription => { userDescription := memberAt members 0 }
  | _ => {}

/-! ## What is written -/

/-- The data of a response are the members, and the length that is claimed is theirs. -/
structure Written (members : List Member) (body : ResponseData) : Prop where
  octets : body.octets = packed order members
  covered : room members ≤ body.datalen
  claimed : body.datalen ≤ evenUp (room members)
  short : room members ≤ 1000

end Values

section Writing

variable {order : ByteOrder} {c : ManagedClock} {now : Int} {p : PortRef}
  {req : ManagementRequest} {target : ManagedPort} {id : Nat} {body : ResponseData}

/-- Members are written when their octets are, with their length. -/
theorem written_of_room {members : List Member} {cd : MgmtClockDescription} {size : Nat}
    {octets : List UInt8} (same : octets = packed order members) (long : room members = size)
    (short : size ≤ 1000) : Written order members ⟨octets, size, cd⟩ :=
  ⟨same, Nat.le_of_eq long, by simp only [evenUp]; omega, by omega⟩

/-- A single octet is written with the octet that fills it up. -/
theorem written_datum (val : UInt8) : Written order (datumMembers val) (managementTlvDatum val) :=
  ⟨rfl, (by decide : 1 ≤ 2), (by decide : 2 ≤ evenUp 1), (by decide : 1 ≤ 1000)⟩

/-- A structure that is copied is written as its members. -/
theorem written_copy {kinds : List Kind} {size : Nat} {ds : Storage}
    (whole : (kinds.map Kind.width).sum = size) (short : size ≤ 1000) :
    Written order (membersOf order ds 0 kinds) (copyOf size ds) := by
  refine written_of_room ?_ (room_membersOf.trans whole) short
  rw [packed_membersOf, whole]

/-- A text is packed with its length before it. -/
theorem packed_text (text : List UInt8) : packed order (textMembers text) = ptpText text := by
  simp [textMembers, ptpText, Member.written, image_one]

/-- A text takes as many octets as it has, and one for its length. -/
theorem room_text (text : List UInt8) : room (textMembers text) = 1 + text.length := by
  simp [textMembers, Member.width]

/-- A number of two octets in the order of the host. -/
theorem image_halfword (number : UInt16) : image order 2 number.toNat = halfword order number := by
  have low : octet number.toNat 0 = number.toUInt8 := by
    simp [octet]
  have high : octet number.toNat 1 = (number >>> 8).toUInt8 := by
    apply UInt8.toNat_inj.mp
    simp [octet, Nat.shiftRight_eq_div_pow]
  cases order <;> simp [image, halfword, low, high, List.range_succ]

/-- An identity of a port is packed as its octets. -/
theorem packed_identity (identity : PortIdentity) :
    packed order (identityMembers identity) = identity.octets order := by
  simp [identityMembers, PortIdentity.octets, Member.written, image_halfword]

/-- An identity of a port takes ten octets. -/
theorem room_identity (identity : PortIdentity) : room (identityMembers identity) = 10 := by
  simp [identityMembers, Member.width]

/-- The status of the time is written member by member. -/
theorem packed_timeStatus : timeStatusNp order c = packed order (timeStatusMembers order c) := by
  simp [timeStatusNp, timeStatusMembers, Member.written, TimeStatusNp.scaledLastGmPhaseChange,
    TimeStatusNp.gmTimeBaseIndicator, image_load]

/-- The settings of the grandmaster are written member by member. -/
theorem packed_settings :
    grandmasterSettingsNp order c = packed order (settingsMembers order c) := by
  simp [grandmasterSettingsNp, settingsMembers, packed_append, packed_membersOf, Member.written,
    qualityKinds, Kind.width]

/-- The members of the status of the time fill its structure. -/
theorem room_timeStatus : room (timeStatusMembers order c) = TimeStatusNp.size := by
  simp [timeStatusMembers, Member.width, TimeStatusNp.size, ScaledNs.size]

/-- The members of the settings fill their structure. -/
theorem room_settings : room (settingsMembers order c) = GrandmasterSettingsNp.size := by
  rw [← @packed_length order, ← packed_settings]
  simp [grandmasterSettingsNp, GrandmasterSettingsNp.size]

/-- The members of the data set of a port fill its structure. -/
theorem room_port : room (portMembers target) = PortDS.size := by
  simp [portMembers, room_append, room_identity, Member.width, PortDS.size]

/-- The properties of a port end with a text. -/
theorem room_properties :
    room (propertiesMembers target) = PortPropertiesNp.size + target.tsLabel.text.length := by
  simp [propertiesMembers, room_append, room_identity, room_text, Member.width,
    PortPropertiesNp.size]
  omega

/-- The one answer whose length is not counted: SUBSCRIBE_EVENTS_NP on the local socket. -/
def Uncounted (mid : MgmtId) (p : PortRef) : Prop := mid = .subscribeEventsNp ∧ p = .uds

instance (mid : MgmtId) (p : PortRef) : Decidable (Uncounted mid p) :=
  inferInstanceAs (Decidable (_ ∧ _))

/-- A clock answers with its values, but for the answer whose length is not counted. -/
theorem clock_written {mid : MgmtId} (named : MgmtId.ofCode id = some mid)
    (answered : clockResponseData order c now p req id = some body) :
    ∃ members, clockValues order c now p req mid = some members ∧ body.cd = {} ∧
      (Uncounted mid p → body.datalen = 0) ∧ (¬Uncounted mid p → Written order members body) := by
  unfold clockResponseData at answered
  rw [named] at answered
  cases mid with
  | userDescription =>
    obtain rfl := Option.some.inj answered
    have bounded := c.desc.userDescription.bounded
    refine ⟨_, rfl, rfl, fun both => absurd both.1 (by decide), fun _ => ?_⟩
    exact written_of_room (packed_text _).symm (room_text _) (by omega)
  | defaultDataSet | currentDataSet | parentDataSet | timePropertiesDataSet =>
    obtain rfl := Option.some.inj answered
    refine ⟨_, rfl, rfl, fun both => absurd both.1 (by decide), fun _ => ?_⟩
    exact written_copy (by decide) (by decide)
  | priority1 | priority2 | domain | slaveOnly | clockAccuracy | traceabilityProperties
  | timescaleProperties =>
    obtain rfl := Option.some.inj answered
    exact ⟨_, rfl, rfl, fun both => absurd both.1 (by decide), fun _ => written_datum _⟩
  | timeStatusNp =>
    obtain rfl := Option.some.inj answered
    refine ⟨_, rfl, rfl, fun both => absurd both.1 (by decide), fun _ => ?_⟩
    exact written_of_room packed_timeStatus room_timeStatus (by decide)
  | grandmasterSettingsNp =>
    obtain rfl := Option.some.inj answered
    refine ⟨_, rfl, rfl, fun both => absurd both.1 (by decide), fun _ => ?_⟩
    exact written_of_room packed_settings room_settings (by decide)
  | subscribeEventsNp =>
    by_cases socket : p = .uds
    · simp only [socket, ne_eq, not_true_eq_false, if_false] at answered
      obtain rfl := Option.some.inj answered
      refine ⟨_, by rw [clockValues, if_pos socket], rfl, fun _ => rfl, fun counted => ?_⟩
      exact absurd ⟨rfl, socket⟩ counted
    · simp only [ne_eq, socket, not_false_eq_true, if_true] at answered
      obtain rfl := Option.some.inj answered
      refine ⟨_, by rw [clockValues, if_neg socket], rfl, fun _ => rfl, fun _ => ?_⟩
      exact written_of_room rfl rfl (by decide)
  | _ => cases answered

/-- The names of the physical layers are short. -/
theorem layer_bounded (target : ManagedPort) : (physicalLayerProtocol target).length ≤ 10 := by
  unfold physicalLayerProtocol
  cases target.transportType <;> decide

/-- An identifier of a profile has six octets. -/
theorem profileId_length (mechanism : DelayMechanism) : (profileId mechanism).length = 6 := by
  cases mechanism <;> rfl

/-- The parts of a clock description take as many octets as the code counts. -/
theorem room_description : room (descriptionMembers c target) =
    (clockDescriptionData order c target).datalen := by
  simp [descriptionMembers, clockDescriptionData, room_append, room_text, profileId_length,
    Member.width, PTPText.size, PhysicalAddress.size, PortAddress.size, ouiLen, profileIdLen]
  omega

/-- A clock description always fits into a message. -/
theorem room_description_bounded : room (descriptionMembers c target) ≤ 1000 := by
  have layer := layer_bounded target
  have physical := target.physicalAddr.bounded
  have protocol := target.protocolAddr.bounded
  have product := c.desc.productDescription.bounded
  have revision := c.desc.revisionData.bounded
  have user := c.desc.userDescription.bounded
  simp only [transportAddrLen] at physical protocol
  simp [descriptionMembers, room_append, room_text, profileId_length, Member.width]
  omega

/-- The parts of a clock description are written one after another. -/
theorem written_description :
    Written order (descriptionMembers c target) (clockDescriptionData order c target) := by
  refine ⟨?_, Nat.le_of_eq room_description, ?_, room_description_bounded⟩
  · simp [descriptionMembers, clockDescriptionData, packed_append, packed_text, Member.written]
  · rw [← room_description, evenUp]
    omega

/-- A port answers with its values. -/
theorem port_written {mid : MgmtId} (named : MgmtId.ofCode id = some mid)
    (answered : portResponseData order c target id = some body) :
    ∃ members, portValues c target mid = some members ∧ Written order members body := by
  unfold portResponseData at answered
  rw [named] at answered
  cases mid with
  | nullManagement =>
    obtain rfl := Option.some.inj answered
    exact ⟨_, rfl, written_of_room rfl rfl (by decide)⟩
  | clockDescription =>
    obtain rfl := Option.some.inj answered
    exact ⟨_, rfl, written_description⟩
  | portDataSet =>
    obtain rfl := Option.some.inj answered
    refine ⟨_, rfl, written_of_room ?_ room_port (by decide)⟩
    simp [portDS, portMembers, packed_append, packed_identity, Member.written]
  | logAnnounceInterval | announceReceiptTimeout | logSyncInterval | versionNumber
  | delayMechanism | logMinPdelayReqInterval =>
    obtain rfl := Option.some.inj answered
    exact ⟨_, rfl, written_datum _⟩
  | portDataSetNp =>
    obtain rfl := Option.some.inj answered
    refine ⟨_, rfl, written_of_room ?_ rfl (by decide)⟩
    simp [portDsNp, Member.written]
  | portPropertiesNp =>
    obtain rfl := Option.some.inj answered
    refine ⟨_, rfl, written_of_room ?_ room_properties ?_⟩
    · simp [portPropertiesNp, propertiesMembers, packed_append, packed_identity, packed_text,
        Member.written]
    · have bounded := target.tsLabel.bounded
      simp only [PortPropertiesNp.size]
      omega
  | _ => cases answered

/-! ## Room for the values -/

/-- The members of a text fit into their octets. -/
theorem fits_text (text : StaticPtpText) : ∀ member ∈ textMembers text.text, member.Fits := by
  have bounded := text.bounded
  simp only [textMembers, List.forall_mem_cons, Member.Fits]
  exact ⟨by omega, trivial, by simp⟩

/-- The members of an identity fit into their octets. -/
theorem fits_identity (identity : PortIdentity) :
    ∀ member ∈ identityMembers identity, member.Fits := by
  simp only [identityMembers, List.forall_mem_cons, Member.Fits]
  exact ⟨trivial, identity.portNumber.toNat_lt, by simp⟩

/-- The offset of UTC has room in GRANDMASTER_SETTINGS_NP. -/
def OffsetFits (c : ManagedClock) : Prop := -32768 ≤ c.utcOffset ∧ c.utcOffset < 32768

/-- The values of a clock have room, but for an offset of UTC beyond 16 bits. -/
theorem clock_fits {mid : MgmtId} {members : List Member}
    (values : clockValues order c now p req mid = some members) (counted : ¬Uncounted mid p)
    (offset : mid = .grandmasterSettingsNp → OffsetFits c) : ∀ member ∈ members, member.Fits := by
  cases mid with
  | userDescription =>
    obtain rfl := Option.some.inj values
    exact fits_text _
  | defaultDataSet | currentDataSet | parentDataSet | timePropertiesDataSet =>
    obtain rfl := Option.some.inj values
    exact fits_membersOf
  | priority1 | priority2 | domain | slaveOnly | clockAccuracy | traceabilityProperties
  | timescaleProperties =>
    obtain rfl := Option.some.inj values
    simp [datumMembers, Member.Fits]
  | timeStatusNp =>
    obtain rfl := Option.some.inj values
    have present : gmPresent c < 256 ^ 4 := by
      unfold gmPresent
      split <;> decide
    simp only [timeStatusMembers, List.forall_mem_cons, Member.Fits]
    exact ⟨c.masterOffset.toNat_lt, c.ingressTs.toNat_lt, c.scaledRateOffset.toNat_lt,
      load_bound order _ _, load_bound order _ _, trivial, present, trivial, by simp⟩
  | grandmasterSettingsNp =>
    obtain rfl := Option.some.inj values
    obtain ⟨low, high⟩ := offset rfl
    refine List.forall_mem_append.mpr ⟨fits_membersOf, ?_⟩
    simp only [List.forall_mem_cons, Member.Fits]
    exact ⟨⟨by omega, by omega⟩, trivial, by simp⟩
  | subscribeEventsNp =>
    rw [clockValues, if_neg fun socket => counted ⟨rfl, socket⟩] at values
    obtain rfl := Option.some.inj values
    simp
  | _ => cases values

/-- The code of a type of clocks fits into two octets. -/
theorem code_fits (type : ClockType) : type.code < 256 ^ 2 := by
  cases type <;> decide

/-- The code of a transport fits into two octets. -/
theorem transport_fits (type : TransportType) : type.code < 256 ^ 2 := by
  cases type <;> decide

/-- The values of a port have room. -/
theorem port_fits {mid : MgmtId} {members : List Member}
    (values : portValues c target mid = some members) : ∀ member ∈ members, member.Fits := by
  cases mid with
  | nullManagement =>
    obtain rfl := Option.some.inj values
    simp
  | clockDescription =>
    obtain rfl := Option.some.inj values
    have layer : (physicalLayerProtocol target).length < 256 ^ 1 :=
      Nat.lt_of_le_of_lt (layer_bounded target) (by decide)
    have physical : target.physicalAddr.octets.length < 256 ^ 2 :=
      Nat.lt_of_le_of_lt target.physicalAddr.bounded (by decide)
    have protocol : target.protocolAddr.octets.length < 256 ^ 2 :=
      Nat.lt_of_le_of_lt target.protocolAddr.bounded (by decide)
    have type := code_fits c.type
    have transport := transport_fits target.transportType
    simp only [descriptionMembers, List.forall_mem_append]
    refine ⟨⟨⟨⟨⟨⟨⟨⟨?_, ?_⟩, ?_⟩, ?_⟩, ?_⟩, fits_text _⟩, fits_text _⟩, fits_text _⟩, ?_⟩
    all_goals simp [textMembers, Member.Fits]
    all_goals omega
  | portDataSet =>
    obtain rfl := Option.some.inj values
    refine List.forall_mem_append.mpr ⟨fits_identity _, ?_⟩
    have delay := target.peerMeanPathDelay.toNat_lt
    simp [Member.Fits]
    omega
  | logAnnounceInterval | announceReceiptTimeout | logSyncInterval | versionNumber
  | delayMechanism | logMinPdelayReqInterval =>
    obtain rfl := Option.some.inj values
    simp [datumMembers, Member.Fits]
  | portDataSetNp =>
    obtain rfl := Option.some.inj values
    simp only [List.forall_mem_cons, Member.Fits]
    exact ⟨target.neighborPropDelayThresh.toNat_lt, target.asCapable.toNat_lt, by simp⟩
  | portPropertiesNp =>
    obtain rfl := Option.some.inj values
    refine List.forall_mem_append.mpr ⟨List.forall_mem_append.mpr ⟨fits_identity _, ?_⟩, fits_text _⟩
    simp [Member.Fits]
  | _ => cases values

end Writing

end LinuxPtp.ManagementAnswers
