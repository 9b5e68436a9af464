import LinuxPtp.ManagementAccess
import LinuxPtp.ManagementValues
import LinuxPtp.RoundTrip

/-!
# Answers survive transmission

A filled response is a well-formed message, whatever was asked for. Its receiver therefore has the
values, provided that their length was counted and that they had room.

The three steps are that the data of every identifier are those of its members, that packed
members can be read back, and that the reply is in the grammar of the parser and so comes through
a transport as it was filled. The two identifiers that fail do so in the first and in the second
step.
-/

namespace LinuxPtp.ManagementAnswers

open Octets

section Filling

variable {order : ByteOrder} {base : Message} {id : Nat} {body : ResponseData}

/-! ## The message that is filled -/

/-- A message that is filled: a reply, or a notification. -/
def Built (order : ByteOrder) (c : ManagedClock) (base : Message) : Prop :=
  ∃ pid ingress, (∃ req, base = portManagementReply order c pid ingress req) ∨
    base = portManagementNotify order c pid ingress

/-- A management message without a TLV. -/
structure Empty (order : ByteOrder) (base : Message) : Prop where
  version : lowNibble (base.data PtpHeader.ver).toNat = ptpVersion
  known : msgType base.data = some .management
  length : messageLength order base.data = ManagementMsg.size
  tlvs : base.tlvList = []
  count : base.tlvCount = 0

/-- Constructing a message writes its first four octets at once. -/
theorem constructed_head {c : ManagedClock} {pid : PortIdentity} {ingress : PortRef}
    {sequenceId : Nat} {target : Option (List UInt8)} {hops : UInt8} {action : ManagementAction}
    {index : Nat} (head : index < 4) :
    (portManagementConstruct order c pid ingress sequenceId target hops action).data index =
      store order PtpHeader.messageLength ManagementMsg.size
        (setOctet PtpHeader.ver (UInt8.ofNat ptpVersion)
          (setOctet PtpHeader.tsmt (0xD ||| (c.port ingress).transportSpecific) fun _ => 0))
        index := by
  have set : ∀ {offset value} {data : Storage}, 4 ≤ offset →
      setOctet offset value data index = data index := fun behind => setOctet_other (by omega)
  have copied : ∀ {offset octets} {data : Storage}, 4 ≤ offset →
      writeOctets offset octets data index = data index :=
    fun behind => writeOctets_outside (Or.inl (by omega))
  have stored : ∀ {field number} {data : Storage}, 4 ≤ field.offset →
      store order field number data index = data index := fun behind => store_outside fun inside => by
    have low := inside.1
    omega
  unfold portManagementConstruct Message.fresh
  cases target <;> cases action <;> simp (disch := decide) only [set, copied, stored]

/-- The type of a message that is built is management, whatever stands in the upper half of the
octet. -/
theorem management_nibble {transportSpecific : UInt8} (shifted : transportSpecific &&& 0x0f = 0) :
    lowNibble (0xD ||| transportSpecific).toNat = 0xD := by
  have masked := congrArg UInt8.toNat shifted
  rw [UInt8.toNat_and] at masked
  have low : transportSpecific.toNat % 2 ^ 4 = 0 := by
    rw [← Nat.and_two_pow_sub_one_eq_mod]
    exact masked
  change (0xD ||| transportSpecific).toNat % 2 ^ 4 = 0xD
  rw [UInt8.toNat_or, Nat.or_mod_two_pow, low]
  rfl

/-- A message that was just constructed has no TLV. -/
theorem empty_constructed {c : ManagedClock} {pid : PortIdentity} {ingress : PortRef}
    {sequenceId : Nat} {target : Option (List UInt8)} {hops : UInt8} {action : ManagementAction} :
    Empty order (portManagementConstruct order c pid ingress sequenceId target hops action) where
  version := by
    rw [constructed_head (by decide), store_outside (by decide), setOctet_same]
    decide
  known := by
    unfold msgType
    rw [constructed_head (by decide), store_outside (by decide), setOctet_other (by decide),
      setOctet_same, management_nibble (c.port ingress).shifted]
    rfl
  length := by
    have same : ∀ index, PtpHeader.messageLength.Covers index → index < 4 := fun _ inside => inside.2
    unfold messageLength
    rw [load_congr order _ fun index inside => constructed_head (same index inside), load_store]
    decide
  tlvs := rfl
  count := rfl

/-- Whatever its parts are, as long as they are built from the clock. -/
theorem empty_of_built {c : ManagedClock} (built : Built order c base) : Empty order base := by
  obtain ⟨pid, ingress, ⟨req, rfl⟩ | rfl⟩ := built
  · unfold portManagementReply
    exact empty_constructed
  · exact empty_constructed

/-! ## The filled message -/

/-- What filling leaves: a message with one management TLV of a length around some data. -/
structure Filled (order : ByteOrder) (id length : Nat) (octets : List UInt8)
    (cd : MgmtClockDescription) (msg : Message) : Prop where
  version : lowNibble (msg.data PtpHeader.ver).toNat = ptpVersion
  known : msgType msg.data = some .management
  whole : messageLength order msg.data = 52 + length
  type : load order (Tlv.type.shift ManagementMsg.size) msg.data = 0x0001
  id : load order (ManagementTlv.id.shift ManagementMsg.size) msg.data = id
  length : load order (Tlv.length.shift ManagementMsg.size) msg.data = length
  data : octetsAt 54 octets.length msg.data = octets
  tlvs : msg.tlvList = [{ tlv := ManagementMsg.size, cd := cd }]
  count : msg.tlvCount = 1

/-- The data with the type, the identifier and the pad. -/
def filledBody (order : ByteOrder) (id : Nat) (body : ResponseData) (data : Storage) : Storage :=
  let written := writeOctets 54 body.octets
    (store order (ManagementTlv.id.shift ManagementMsg.size) id
      (store order (Tlv.type.shift ManagementMsg.size) 0x0001 data))
  if body.datalen % 2 = 1 then setOctet (54 + body.datalen) 0 written else written

/-- The lengths are written last. -/
theorem finishResponse_data : (finishResponse order base id body).data =
    store order PtpHeader.messageLength
      (messageLength order base.data + (6 + evenUp body.datalen))
      (store order (Tlv.length.shift ManagementMsg.size) (2 + evenUp body.datalen)
        (filledBody order id body base.data)) := by
  have kept : load order PtpHeader.messageLength (filledBody order id body base.data) =
      messageLength order base.data := by
    unfold filledBody
    have written : load order PtpHeader.messageLength (writeOctets 54 body.octets
        (store order (ManagementTlv.id.shift ManagementMsg.size) id
          (store order (Tlv.type.shift ManagementMsg.size) 0x0001 base.data))) =
        messageLength order base.data := by
      rw [load_writeOctets (Or.inl (by decide)), load_store_apart (by decide),
        load_store_apart (by decide)]
      rfl
    split
    · rw [load_setOctet fun inside => by
        have high := inside.2
        change 54 + body.datalen < 4 at high
        omega]
      exact written
    · exact written
  have whole : load order PtpHeader.messageLength
      (store order (Tlv.length.shift ManagementMsg.size) (2 + evenUp body.datalen)
        (filledBody order id body base.data)) = messageLength order base.data := by
    rw [load_store_apart (by decide), kept]
  rw [← whole]
  unfold finishResponse filledBody evenUp
  by_cases odd : body.datalen % 2 = 1
  · simp only [odd]
    rfl
  · have even : body.datalen % 2 = 0 := by omega
    simp only [even]
    rfl

/-- Filling changes nothing before the TLV but the length. -/
theorem finishResponse_before {index : Nat} (head : index < 48)
    (other : ¬PtpHeader.messageLength.Covers index) :
    (finishResponse order base id body).data index = base.data index := by
  have before : ∀ {field : Field}, ¬(field.shift ManagementMsg.size).Covers index := fun inside => by
    have low := inside.1
    simp only [Field.shift_offset, ManagementMsg.size] at low
    omega
  have written : filledBody order id body base.data index = base.data index := by
    unfold filledBody
    have same : writeOctets 54 body.octets
        (store order (ManagementTlv.id.shift ManagementMsg.size) id
          (store order (Tlv.type.shift ManagementMsg.size) 0x0001 base.data)) index =
        base.data index := by
      rw [writeOctets_outside (Or.inl (by omega)), store_outside before, store_outside before]
    split
    · rw [setOctet_other (by omega)]
      exact same
    · exact same
  rw [finishResponse_data, store_outside other, store_outside before, written]

/-- A field of the TLV's head keeps what is stored in it. -/
theorem load_filledBody {field : Field} {data : Storage} (head : field.stop ≤ 6) :
    load order (field.shift ManagementMsg.size) (filledBody order id body data) =
      load order (field.shift ManagementMsg.size)
        (store order (ManagementTlv.id.shift ManagementMsg.size) id
          (store order (Tlv.type.shift ManagementMsg.size) 0x0001 data)) := by
  have before : (field.shift ManagementMsg.size).stop ≤ 54 := by
    rw [Field.shift_stop]
    exact Nat.add_le_add_left head 48
  unfold filledBody
  dsimp only
  split
  · rw [load_setOctet fun inside => by
      have high := inside.2
      omega]
    exact load_writeOctets (Or.inl before)
  · exact load_writeOctets (Or.inl before)

/-- Filling an empty message. -/
theorem filled_of_empty (empty : Empty order base) (small : id < 2 ^ 16)
    (short : body.datalen ≤ 2000)
    (padded : body.datalen % 2 = 1 → body.octets.length ≤ body.datalen) :
    Filled order id (2 + evenUp body.datalen) body.octets body.cd
      (finishResponse order base id body) where
  version := by
    rw [finishResponse_before (by decide) (by decide)]
    exact empty.version
  known := by
    unfold msgType
    rw [finishResponse_before (by decide) (by decide)]
    exact empty.known
  whole := by
    have size : messageLength order base.data = 48 := empty.length
    have bound : evenUp body.datalen ≤ 2001 := by
      unfold evenUp
      omega
    have fits : 48 + (6 + evenUp body.datalen) < 256 ^ PtpHeader.messageLength.width := by
      simp only [PtpHeader.messageLength]
      omega
    rw [finishResponse_data, size]
    change load order PtpHeader.messageLength _ = _
    rw [load_store, Nat.mod_eq_of_lt fits]
    omega
  type := by
    rw [finishResponse_data, load_store_apart (by decide), load_store_apart (by decide),
      load_filledBody (by decide), load_store_apart (by decide), load_store]
    decide
  id := by
    rw [finishResponse_data, load_store_apart (by decide), load_store_apart (by decide),
      load_filledBody (by decide), load_store]
    exact Nat.mod_eq_of_lt small
  length := by
    have bound : evenUp body.datalen ≤ 2001 := by
      unfold evenUp
      omega
    rw [finishResponse_data, load_store_apart (by decide), load_store]
    exact Nat.mod_eq_of_lt (by simp only [Field.shift_width, Tlv.length]; omega)
  data := by
    have same : ∀ index, 54 ≤ index → index < 54 + body.octets.length →
        (finishResponse order base id body).data index =
          writeOctets 54 body.octets
            (store order (ManagementTlv.id.shift ManagementMsg.size) id
              (store order (Tlv.type.shift ManagementMsg.size) 0x0001 base.data)) index := by
      intro index low high
      have behind : ∀ {field : Field}, field.stop ≤ 54 → ¬field.Covers index :=
        fun stop inside => by
          have below := inside.2
          omega
      rw [finishResponse_data, store_outside (behind (by decide)),
        store_outside (behind (by decide))]
      unfold filledBody
      split
      next odd =>
        have inside := padded odd
        rw [setOctet_other (by omega)]
      next => rfl
    rw [octetsAt_congr same, octetsAt_writeOctets]
  tlvs := by
    unfold finishResponse
    simp [empty.tlvs]
  count := by
    unfold finishResponse
    simp [empty.count]

end Filling

/-! ## Sizes -/

section Sizes

variable {order : ByteOrder} {c : ManagedClock} {now : Int} {p : PortRef}
  {req : ManagementRequest} {target : ManagedPort} {data : Storage}

/-- The TLV of a management message. -/
def tlvReading (order : ByteOrder) (data : Storage) : Reading :=
  readingAt order data ManagementMsg.size

/-- A word of a TLV is read from its place in the message. -/
theorem word_of_load {offset value : Nat} (position : Nat) (there : offset = 48 + position)
    (read : load order ⟨offset, 2⟩ data = value) : (tlvReading order data).word position = value := by
  subst there
  exact read

/-- An octet of a TLV is read from its place in the message. -/
theorem octet_of_load {offset value : Nat} (position : Nat) (there : offset = 48 + position)
    (read : load order ⟨offset, 1⟩ data = value) :
    (tlvReading order data).octet position = value := by
  subst there
  rw [load_one] at read
  exact read

/-- Where the parts of a clock description are, and the lengths that they show. -/
structure DescriptionRead (c : ManagedClock) (target : ManagedPort) (reading : Reading) :
    Prop where
  physicalAddress : reading.physicalAddress = 9 + (physicalLayerProtocol target).length
  physicalLength : reading.word reading.physicalAddress = target.physicalAddr.octets.length
  protocolAddress : reading.protocolAddress =
    reading.physicalAddress + 2 + target.physicalAddr.octets.length
  protocolLength :
    reading.word (reading.protocolAddress + 2) = target.protocolAddr.octets.length
  manufacturerIdentity : reading.manufacturerIdentity =
    reading.protocolAddress + 4 + target.protocolAddr.octets.length
  revisionData : reading.revisionData =
    reading.manufacturerIdentity + 5 + c.desc.productDescription.text.length
  userDescription : reading.userDescription =
    reading.revisionData + 1 + c.desc.revisionData.text.length
  profileIdentity : reading.profileIdentity =
    reading.userDescription + 1 + c.desc.userDescription.text.length

/-- The parts of a clock description are found where the lengths before them say. -/
theorem description_read (holds : Holds order data 54 (descriptionMembers c target)) :
    DescriptionRead c target (tlvReading order data) := by
  have oui : c.desc.manufacturerIdentity.toList.length = 3 := Vector.length_toList
  simp only [Holds, descriptionMembers, textMembers, Member.Reads, Member.width, List.cons_append,
    List.nil_append, List.length_singleton, oui] at holds
  obtain ⟨-, layer, -, physical, -, -, protocol, -, -, -, product, -, revision, -, user, -⟩ := holds
  obtain ⟨reading, same⟩ : ∃ reading, reading = tlvReading order data := ⟨_, rfl⟩
  rw [← same]
  have physicalAddress : reading.physicalAddress = 9 + (physicalLayerProtocol target).length := by
    rw [same, Reading.physicalAddress, octet_of_load 8 rfl layer]
  have physicalLength :
      reading.word reading.physicalAddress = target.physicalAddr.octets.length := by
    rw [same] at physicalAddress ⊢
    exact word_of_load _ (by omega) physical
  have protocolAddress : reading.protocolAddress =
      reading.physicalAddress + 2 + target.physicalAddr.octets.length := by
    rw [Reading.protocolAddress, physicalLength]
  have protocolLength :
      reading.word (reading.protocolAddress + 2) = target.protocolAddr.octets.length := by
    rw [same] at physicalAddress protocolAddress ⊢
    exact word_of_load _ (by omega) protocol
  have manufacturerIdentity : reading.manufacturerIdentity =
      reading.protocolAddress + 4 + target.protocolAddr.octets.length := by
    rw [Reading.manufacturerIdentity, protocolLength]
  have productDescription : reading.productDescription = reading.manufacturerIdentity + 4 := rfl
  have productLength :
      reading.octet reading.productDescription = c.desc.productDescription.text.length := by
    rw [same] at physicalAddress protocolAddress manufacturerIdentity productDescription ⊢
    exact octet_of_load _ (by omega) product
  have revisionData : reading.revisionData =
      reading.manufacturerIdentity + 5 + c.desc.productDescription.text.length := by
    rw [Reading.revisionData, productLength, productDescription]
  have revisionLength : reading.octet reading.revisionData = c.desc.revisionData.text.length := by
    rw [same] at physicalAddress protocolAddress manufacturerIdentity revisionData ⊢
    exact octet_of_load _ (by omega) revision
  have userDescription : reading.userDescription =
      reading.revisionData + 1 + c.desc.revisionData.text.length := by
    rw [Reading.userDescription, revisionLength]
  have userLength :
      reading.octet reading.userDescription = c.desc.userDescription.text.length := by
    rw [same] at physicalAddress protocolAddress manufacturerIdentity revisionData userDescription ⊢
    exact octet_of_load _ (by omega) user
  have profileIdentity : reading.profileIdentity =
      reading.userDescription + 1 + c.desc.userDescription.text.length := by
    rw [Reading.profileIdentity, userLength]
  exact ⟨physicalAddress, physicalLength, protocolAddress, protocolLength, manufacturerIdentity,
    revisionData, userDescription, profileIdentity⟩

/-- The parser finds the parts of a clock description where they were put. -/
theorem description_pointers {reading : Reading} (read : DescriptionRead c target reading) :
    reading.clockDescription ManagementMsg.size =
      pointers .clockDescription (descriptionMembers c target) := by
  have oui : c.desc.manufacturerIdentity.toList.length = 3 := Vector.length_toList
  obtain ⟨physical, _, protocol, _, manufacturer, revision, user, profile⟩ := read
  have product : reading.productDescription = reading.manufacturerIdentity + 4 := rfl
  simp [Reading.clockDescription, pointers, memberAt, descriptionMembers, textMembers, Member.width,
    ManagementMsg.size, ManagementTlv.data, Reading.physicalLayerProtocol]
  omega

/-- The parser comes to as many octets as the members take. -/
theorem description_room {reading : Reading} (read : DescriptionRead c target reading) :
    reading.profileIdentity = room (descriptionMembers c target) := by
  have oui : c.desc.manufacturerIdentity.toList.length = 3 := Vector.length_toList
  obtain ⟨physical, _, protocol, _, manufacturer, revision, user, profile⟩ := read
  simp [descriptionMembers, room_append, room_text, profileId_length, Member.width]
  omega

/-- The pointers that are set are those that are found. -/
theorem description_cd :
    (clockDescriptionData order c target).cd.clockType =
        (pointers .clockDescription (descriptionMembers c target)).clockType ∧
      (clockDescriptionData order c target).cd.physicalAddress =
        (pointers .clockDescription (descriptionMembers c target)).physicalAddress ∧
      (clockDescriptionData order c target).cd.protocolAddress =
        (pointers .clockDescription (descriptionMembers c target)).protocolAddress := by
  simp [clockDescriptionData, pointers, memberAt, descriptionMembers, textMembers, Member.width,
    ManagementMsg.size, ManagementTlv.data, PTPText.size, PhysicalAddress.size]
  omega

/-- A reading that satisfies the parser and shows where its parts are. -/
structure Readable (mid : MgmtId) (members : List Member) (reading : Reading) : Prop where
  sized : 2 < reading.length → reading.ManagementSized
  described : reading.descriptor ManagementMsg.size =
    { tlv := ManagementMsg.size, cd := pointers mid members }

/-- A management TLV with an identifier, of the length of some members, that contains them. -/
structure Contains (order : ByteOrder) (mid : MgmtId) (members : List Member) (data : Storage) :
    Prop where
  type : (tlvReading order data).type = .management
  id : (tlvReading order data).managementId = ManagementId.ofCode mid.code
  length : (tlvReading order data).length = 2 + evenUp (room members)
  octets : octetsAt 54 (room members) data = packed order members

/-- The parser demands no other size of a TLV than it has. -/
def Unsized (id : ManagementId) (members : List Member) : Prop :=
  members = [] ∨ ∀ size, Reading.dataSetSize id = some size →
    room members = size ∧ size % 2 = 0

/-- No length is required of data that have no set size. -/
theorem unsized_of_none {id : ManagementId} {members : List Member}
    (none : Reading.dataSetSize id = none) : Unsized id members := by
  refine Or.inr fun size demanded => ?_
  rw [none] at demanded
  cases demanded

/-- Data of which the parser looks at nothing can be read by it. -/
theorem readable_of_unsized {mid : MgmtId} {members : List Member} {id : ManagementId}
    (contains : Contains order mid members data) (named : ManagementId.ofCode mid.code = id)
    (plain : id ≠ .clockDescription ∧ id ≠ .userDescription ∧ id ≠ .portPropertiesNp)
    (unsized : Unsized id members) (nothing : pointers mid members = {}) :
    Readable mid members (tlvReading order data) := by
  obtain ⟨type, same, length, -⟩ := contains
  rw [named] at same
  refine ⟨fun long => ?_, ?_⟩
  · have fits : ∀ size, Reading.dataSetSize id = some size →
        (tlvReading order data).length = 2 + size := by
      intro size demanded
      rcases unsized with rfl | demands
      · rw [length] at long
        exact absurd long (by decide)
      · obtain ⟨whole, even⟩ := demands size demanded
        rw [length, whole, evenUp, even, Nat.add_zero]
    unfold Reading.ManagementSized
    rw [same]
    cases id with
    | clockDescription => exact absurd rfl plain.1
    | userDescription => exact absurd rfl plain.2.1
    | portPropertiesNp => exact absurd rfl plain.2.2
    | _ => exact fits
  · unfold Reading.descriptor
    rw [type, nothing]
    dsimp only
    split
    · rw [same]
      cases id with
      | clockDescription => exact absurd rfl plain.1
      | userDescription => exact absurd rfl plain.2.1
      | _ => rfl
    · rfl

/-- The parser accepts the values of a clock. -/
theorem clock_readable {mid : MgmtId} {members : List Member}
    (values : clockValues order c now p req mid = some members) (counted : ¬Uncounted mid p)
    (contains : Contains order mid members data) :
    Readable mid members (tlvReading order data) := by
  cases mid with
  | userDescription =>
    obtain rfl := Option.some.inj values
    obtain ⟨type, same, length, octets⟩ := contains
    have holds := holds_of_packed (fits_text c.desc.userDescription) octets
    have shown : (tlvReading order data).octet 6 = c.desc.userDescription.text.length :=
      octet_of_load 6 rfl holds.1
    rw [room_text] at length
    refine ⟨fun _ => ?_, ?_⟩
    · unfold Reading.ManagementSized
      rw [same]
      change (tlvReading order data).length = 2 + evenUp (1 + (tlvReading order data).octet 6)
      rw [shown]
      exact length
    · have long : 2 < (tlvReading order data).length := by
        rw [length, evenUp]
        omega
      unfold Reading.descriptor
      rw [type, same]
      dsimp only
      rw [if_pos long]
      rfl
  | defaultDataSet | currentDataSet | parentDataSet | timePropertiesDataSet =>
    obtain rfl := Option.some.inj values
    refine readable_of_unsized contains rfl (by decide) (Or.inr fun size demanded => ?_) rfl
    cases demanded
    exact ⟨room_membersOf, by decide⟩
  | priority1 | priority2 | domain | slaveOnly | clockAccuracy | traceabilityProperties
  | timescaleProperties =>
    exact readable_of_unsized contains rfl (by decide) (unsized_of_none rfl) rfl
  | timeStatusNp =>
    obtain rfl := Option.some.inj values
    refine readable_of_unsized contains rfl (by decide) (Or.inr fun size demanded => ?_) rfl
    cases demanded
    exact ⟨room_timeStatus, by decide⟩
  | grandmasterSettingsNp =>
    obtain rfl := Option.some.inj values
    refine readable_of_unsized contains rfl (by decide) (Or.inr fun size demanded => ?_) rfl
    cases demanded
    exact ⟨room_settings, by decide⟩
  | subscribeEventsNp =>
    rw [clockValues, if_neg fun socket => counted ⟨rfl, socket⟩] at values
    obtain rfl := Option.some.inj values
    exact readable_of_unsized contains rfl (by decide) (Or.inl rfl) rfl
  | _ => cases values

/-- The parser accepts the values of a port. -/
theorem port_readable {mid : MgmtId} {members : List Member}
    (values : portValues c target mid = some members)
    (contains : Contains order mid members data) :
    Readable mid members (tlvReading order data) := by
  have holds := holds_of_packed (port_fits values) contains.octets
  cases mid with
  | nullManagement =>
    obtain rfl := Option.some.inj values
    exact readable_of_unsized contains rfl (by decide) (Or.inl rfl) rfl
  | clockDescription =>
    obtain rfl := Option.some.inj values
    obtain ⟨type, same, length, -⟩ := contains
    have read := description_read holds
    have physical := target.physicalAddr.bounded
    have protocol := target.protocolAddr.bounded
    have whole := description_room read
    refine ⟨fun _ => ?_, ?_⟩
    · unfold Reading.ManagementSized
      rw [same]
      change _ ∧ _ ∧ (tlvReading order data).length = _
      rw [read.physicalLength, read.protocolLength, Reading.descriptionStop, Nat.add_sub_cancel, whole]
      exact ⟨physical, protocol, length⟩
    · have long : 2 < (tlvReading order data).length := by
        have first := read.physicalAddress
        have profile := read.profileIdentity
        have protocol := read.protocolAddress
        rw [length, evenUp]
        omega
      unfold Reading.descriptor
      rw [type, same]
      dsimp only
      rw [if_pos long, ← description_pointers read]
      rfl
  | portDataSet =>
    obtain rfl := Option.some.inj values
    refine readable_of_unsized contains rfl (by decide) (Or.inr fun size demanded => ?_) rfl
    cases demanded
    exact ⟨room_port, by decide⟩
  | logAnnounceInterval | announceReceiptTimeout | logSyncInterval | versionNumber
  | delayMechanism | logMinPdelayReqInterval =>
    exact readable_of_unsized contains rfl (by decide) (unsized_of_none rfl) rfl
  | portDataSetNp =>
    obtain rfl := Option.some.inj values
    refine readable_of_unsized contains rfl (by decide) (Or.inr fun size demanded => ?_) rfl
    cases demanded
    exact ⟨rfl, by decide⟩
  | portPropertiesNp =>
    obtain rfl := Option.some.inj values
    obtain ⟨type, same, length, -⟩ := contains
    have shown : (tlvReading order data).octet 18 = target.tsLabel.text.length := by
      have identity : target.portIdentity.clockIdentity.toList.length = 8 := Vector.length_toList
      simp only [Holds, propertiesMembers, identityMembers, textMembers, Member.Reads, Member.width,
        List.cons_append, List.nil_append, List.length_singleton, identity] at holds
      obtain ⟨-, -, -, -, length, -⟩ := holds
      exact octet_of_load 18 rfl length
    refine ⟨fun _ => ?_, ?_⟩
    · unfold Reading.ManagementSized
      rw [same]
      change (tlvReading order data).length = 2 + evenUp (13 + (tlvReading order data).octet 18)
      rw [shown, length, room_properties]
      rfl
    · unfold Reading.descriptor
      rw [type, same]
      dsimp only
      split
      · rfl
      · rfl
  | _ => cases values

end Sizes

/-! ## Delivery -/

section Delivery

variable {order : ByteOrder} {msg : Message} {mid : MgmtId} {members : List Member}

/-- A message can be sent, and whoever receives its octets accepts a message with a property. -/
def Delivers (order : ByteOrder) (msg : Message) (arrives : Message → Prop) : Prop :=
  ∀ sendTime recvTime, ∃ sent, msgPreSend order sendTime msg = some sent ∧
    ∀ buffer : Storage,
      (∀ index < messageLength order msg.data, buffer index = sent.data index) →
      ∃ reached, msgPostRecv order recvTime (messageLength order msg.data)
          (Message.fresh buffer) = .ok () reached ∧ arrives reached.msg

/-- The one TLV of a received message has an identifier and decodes to some values. -/
structure Carries (order : ByteOrder) (mid : MgmtId) (members : List Member) (reached : Message) :
    Prop where
  tlvs : reached.tlvList = [{ tlv := ManagementMsg.size, cd := pointers mid members }]
  type : load order (Tlv.type.shift ManagementMsg.size) reached.data = 0x0001
  id : load order (ManagementTlv.id.shift ManagementMsg.size) reached.data = mid.code
  length : load order (Tlv.length.shift ManagementMsg.size) reached.data = 2 + evenUp (room members)
  values : Holds order reached.data 54 members

/-- What is sent as a well-formed message comes back. -/
theorem delivers_of_host {arrives : Message → Prop}
    (host : HostMessage order msg .management [ManagementMsg.size])
    (back : ∀ reached, CameBack order msg .management [ManagementMsg.size] reached →
      arrives reached) : Delivers order msg arrives := by
  intro sendTime recvTime
  obtain ⟨sent, isSent, received⟩ := send_receive order sendTime recvTime host
  refine ⟨sent, isSent, fun buffer same => ?_⟩
  obtain ⟨reached, accepted, cameBack⟩ := received buffer same
  exact ⟨reached, accepted, back reached.msg cameBack⟩

/-- What arrives is what comes back. -/
theorem arrived_of_host {arrives : Message → Prop}
    (host : HostMessage order msg .management [ManagementMsg.size])
    (delivers : Delivers order msg arrives) :
    ∃ reached, CameBack order msg .management [ManagementMsg.size] reached ∧ arrives reached := by
  obtain ⟨sent, isSent, received⟩ := send_receive order 0 0 host
  obtain ⟨other, alsoSent, arrived⟩ := delivers 0 0
  obtain rfl := Option.some.inj (isSent.symm.trans alsoSent)
  obtain ⟨reached, accepted, cameBack⟩ := received sent.data fun _ _ => rfl
  obtain ⟨again, alsoAccepted, arrives⟩ := arrived sent.data fun _ _ => rfl
  rw [accepted] at alsoAccepted
  cases alsoAccepted
  exact ⟨reached.msg, cameBack, arrives⟩

/-- The TLV that is filled in is a management TLV. -/
theorem management_of_filled {length : Nat} {octets : List UInt8} {cd : MgmtClockDescription}
    (filled : Filled order mid.code length octets cd msg) :
    (tlvReading order msg.data).type = .management := by
  change TlvType.ofCode (load order (Tlv.type.shift ManagementMsg.size) msg.data) = _
  rw [filled.type]
  rfl

/-- The TLV that is filled in is of the identifier that it was filled for. -/
theorem named_of_filled {length : Nat} {octets : List UInt8} {cd : MgmtClockDescription}
    (filled : Filled order mid.code length octets cd msg) :
    (tlvReading order msg.data).managementId = ManagementId.ofCode mid.code := by
  change ManagementId.ofCode (load order (ManagementTlv.id.shift ManagementMsg.size) msg.data) = _
  rw [filled.id]

/-- A filled message whose TLV satisfies the parser is well formed. -/
theorem host_of_filled {length : Nat} {octets : List UInt8} {cd : MgmtClockDescription}
    (filled : Filled order mid.code length octets cd msg) (even : length % 2 = 0) (least : 2 ≤ length)
    (sized : 2 < length → (tlvReading order msg.data).ManagementSized)
    (described : 2 < length → mid = .clockDescription →
      cd.clockType = ((tlvReading order msg.data).clockDescription ManagementMsg.size).clockType ∧
      cd.physicalAddress =
        ((tlvReading order msg.data).clockDescription ManagementMsg.size).physicalAddress ∧
      cd.protocolAddress =
        ((tlvReading order msg.data).clockDescription ManagementMsg.size).protocolAddress) :
    HostMessage order msg .management [ManagementMsg.size] := by
  have type : (readingAt order msg.data ManagementMsg.size).type = .management :=
    management_of_filled filled
  have size : (readingAt order msg.data ManagementMsg.size).length = length := filled.length
  have named : (readingAt order msg.data ManagementMsg.size).managementId =
      ManagementId.ofCode mid.code := named_of_filled filled
  have stop : tlvStop order msg.data ManagementMsg.size = messageLength order msg.data := by
    rw [tlvStop, size, filled.whole]
    change 48 + 4 + length = 52 + length
    omega
  refine ⟨filled.version, filled.known, ?_, ?_, ?_, filled.count, ?_⟩
  · rw [filled.whole]
    change 48 ≤ 52 + length
    omega
  · refine .tlv _ [] ⟨size ▸ even, Nat.le_of_eq stop, ?_⟩ (.done _ (by omega))
    unfold Reading.WellSized
    rw [type, size]
    exact ⟨least, sized⟩
  · rw [filled.tlvs]
    refine List.forall₂_cons.mpr ⟨⟨rfl, fun _ long description => ?_, ?_⟩, List.Forall₂.nil⟩
    · rw [size] at long
      refine described long ?_
      rw [named] at description
      cases mid <;> first | rfl | cases description
    · rw [type]
      exact TlvType.noConfusion
  · intro start member
    obtain rfl := List.mem_singleton.mp member
    rintro ⟨path, _⟩
    rw [type] at path
    cases path

/-- The part of a `ScaledNs` that is lost is in TIME_STATUS_NP. -/
theorem scaled_place {data : Storage} {index : Nat}
    (management : (tlvReading order data).type = .management)
    (scaled : InScaledNs order data [ManagementMsg.size] index) :
    (tlvReading order data).managementId = .timeStatusNp ∧ 82 ≤ index ∧ index < 90 := by
  obtain ⟨start, member, base, found, inside⟩ := scaled
  obtain rfl := List.mem_singleton.mp member
  change (tlvReading order data).scaledNs = some base at found
  unfold Reading.scaledNs at found
  rw [management] at found
  dsimp only at found
  split at found
  next both =>
    obtain rfl := Option.some.inj found
    exact ⟨both.2, inside⟩
  next => cases found

/-- What comes back is the octets that were sent, but for those that the parser converts to another
representation. -/
theorem same_back {reached : Message}
    (back : CameBack order msg .management [ManagementMsg.size] reached) {index : Nat}
    (inside : index < messageLength order msg.data)
    (kept : ¬InScaledNs order msg.data [ManagementMsg.size] index) :
    reached.data index = msg.data index :=
  back.octets index inside kept fun stamped => absurd stamped (by decide)

/-- The head of the TLV comes back. -/
theorem loads_back {length : Nat} {octets : List UInt8} {cd : MgmtClockDescription}
    {reached : Message} {field : Field} (filled : Filled order mid.code length octets cd msg)
    (back : CameBack order msg .management [ManagementMsg.size] reached) (least : 2 ≤ length)
    (early : field.stop ≤ 6) :
    load order (field.shift ManagementMsg.size) reached.data =
      load order (field.shift ManagementMsg.size) msg.data := by
  have whole := filled.whole
  refine load_congr order _ fun index inside => ?_
  have high : index < 48 + field.stop := by
    rw [← ManagementMsg.size, ← Field.shift_stop]
    exact inside.2
  refine same_back back (by omega) fun scaled => ?_
  have place := scaled_place (management_of_filled filled) scaled
  omega

/-- What comes back of a message with a readable TLV has its values. -/
theorem carries_of_filled {cd : MgmtClockDescription} {reached : Message}
    (filled : Filled order mid.code (2 + evenUp (room members)) (packed order members) cd msg)
    (readable : Readable mid members (tlvReading order msg.data))
    (fits : ∀ member ∈ members, member.Fits)
    (apart : mid = .timeStatusNp → ∀ index, Needed 54 members index → index < 82 ∨ 90 ≤ index)
    (back : CameBack order msg .management [ManagementMsg.size] reached) :
    Carries order mid members reached := by
  have whole := filled.whole
  have least : 2 ≤ 2 + evenUp (room members) := Nat.le_add_right _ _
  refine ⟨?_, ?_, ?_, ?_, ?_⟩
  · rw [back.tlvs]
    exact congrArg (fun extra => [extra]) readable.described
  · exact (loads_back filled back least (by decide)).trans filled.type
  · exact (loads_back filled back least (by decide)).trans filled.id
  · exact (loads_back filled back least (by decide)).trans filled.length
  · have octets := filled.data
    rw [packed_length] at octets
    refine holds_congr (fun index needed => (same_back back ?_ fun scaled => ?_).symm)
      (holds_of_packed fits octets)
    · have bounds := needed_bounds needed
      rw [whole, evenUp]
      omega
    · obtain ⟨status, low, high⟩ := scaled_place (management_of_filled filled) scaled
      have isStatus : mid = .timeStatusNp := by
        rw [named_of_filled filled] at status
        cases mid <;> first | rfl | cases status
      have outside := apart isStatus index needed
      omega

end Delivery

/-! ## The answers -/

section Answering

variable {order : ByteOrder} {c : ManagedClock} {now : Int} {p : PortRef}
  {req : ManagementRequest} {target : ManagedPort} {base msg : Message} {id : Nat}

/-- The answer of a clock carries what its identifier stands for. -/
def ClockAnswerCarries (order : ByteOrder) (c : ManagedClock) (now : Int) (p : PortRef)
    (req : ManagementRequest) (id : Nat) (msg : Message) : Prop :=
  ∃ mid members, mid.code = id ∧ clockValues order c now p req mid = some members ∧
    Delivers order msg (Carries order mid members)

/-- The answer of a port carries what its identifier stands for. -/
def PortAnswerCarries (order : ByteOrder) (c : ManagedClock) (target : ManagedPort) (id : Nat)
    (msg : Message) : Prop :=
  ∃ mid members, mid.code = id ∧ portValues c target mid = some members ∧
    Delivers order msg (Carries order mid members)

/-- An identifier fits into its two octets. -/
theorem code_small (mid : MgmtId) : mid.code < 2 ^ 16 := by
  cases mid <;> decide

/-- No two identifiers have one code. -/
theorem code_inj {mid other : MgmtId} (same : mid.code = other.code) : mid = other := by
  have found := MgmtId.ofCode_code mid
  rw [same, MgmtId.ofCode_code] at found
  exact (Option.some.inj found).symm

/-- What is written and claimed is there after filling. -/
theorem filled_of_written {mid : MgmtId} {members : List Member} {body : ResponseData}
    (empty : Empty order base) (written : Written order members body) :
    Filled order mid.code (2 + evenUp (room members)) (packed order members) body.cd
      (finishResponse order base mid.code body) := by
  obtain ⟨octets, covered, claimed, short⟩ := written
  have length : body.octets.length = room members := by rw [octets, packed_length]
  have same : evenUp body.datalen = evenUp (room members) := by
    unfold evenUp at *
    omega
  have bound : body.datalen ≤ 2000 := by
    unfold evenUp at claimed
    omega
  have filled := @filled_of_empty order base mid.code body empty (code_small mid) bound
    fun _ => by omega
  rw [octets, same] at filled
  exact filled

/-- The members of an answer stand in the message as they were packed. -/
theorem contains_of_filled {mid : MgmtId} {members : List Member} {cd : MgmtClockDescription}
    (filled : Filled order mid.code (2 + evenUp (room members)) (packed order members) cd msg) :
    Contains order mid members msg.data where
  type := management_of_filled filled
  id := named_of_filled filled
  length := filled.length
  octets := by
    have octets := filled.data
    rwa [packed_length] at octets

/-- The length of an answer is even. -/
theorem even_length (size : Nat) : (2 + evenUp size) % 2 = 0 := by
  unfold evenUp
  omega

/-- The answer of a clock is a well-formed message, also when its length is not counted. -/
theorem clock_host {mid : MgmtId} {body : ResponseData} (empty : Empty order base)
    (answered : clockResponseData order c now p req mid.code = some body) :
    HostMessage order (finishResponse order base mid.code body) .management
      [ManagementMsg.size] := by
  obtain ⟨members, values, plain, uncounted, written⟩ :=
    clock_written (MgmtId.ofCode_code mid) answered
  have other : mid ≠ .clockDescription := by
    rintro rfl
    cases values
  by_cases counted : Uncounted mid p
  · have nothing := uncounted counted
    have filled := @filled_of_empty order base mid.code body empty (code_small mid)
      (by omega) (by omega)
    rw [nothing] at filled
    exact host_of_filled filled (by decide) (by decide) (fun long => absurd long (by decide))
      fun _ same => absurd same other
  · have filled := @filled_of_written order base mid members body empty (written counted)
    have readable := clock_readable values counted (contains_of_filled filled)
    refine host_of_filled filled (even_length _) (Nat.le_add_right _ _) (fun long => ?_)
      fun _ same => absurd same other
    exact readable.sized (Nat.lt_of_lt_of_eq long filled.length.symm)

/-- What TIME_STATUS_NP is read of is not lost. -/
theorem timeStatus_apart {index : Nat} (needed : Needed 54 (timeStatusMembers order c) index) :
    index < 82 ∨ 90 ≤ index := by
  simp only [timeStatusMembers, Needed, needs_number, needs_octets, needs_spare, Member.width,
    octetsAt_length, ScaledNs.size, or_false, false_or] at needed
  omega

/-- An answer of the clock carries its data, if its identifier is one whose length is counted and
its offset from UTC fits into two octets. -/
theorem clock_delivers {mid : MgmtId} {body : ResponseData} (empty : Empty order base)
    (answered : clockResponseData order c now p req mid.code = some body)
    (counted : ¬Uncounted mid p) (offset : mid = .grandmasterSettingsNp → OffsetFits c) :
    ClockAnswerCarries order c now p req mid.code (finishResponse order base mid.code body) := by
  obtain ⟨members, values, _, _, written⟩ := clock_written (MgmtId.ofCode_code mid) answered
  have filled := @filled_of_written order base mid members body empty (written counted)
  have readable := clock_readable values counted (contains_of_filled filled)
  refine ⟨mid, members, rfl, values, delivers_of_host (clock_host empty answered) fun _ back => ?_⟩
  refine carries_of_filled filled readable (clock_fits values counted offset) ?_ back
  rintro rfl index needed
  obtain rfl := Option.some.inj values
  exact timeStatus_apart needed

/-- An answer whose length is not counted carries nothing. -/
theorem uncounted_delivers {mid : MgmtId} {body : ResponseData} (empty : Empty order base)
    (answered : clockResponseData order c now p req mid.code = some body)
    (uncounted : Uncounted mid p) :
    ¬ClockAnswerCarries order c now p req mid.code (finishResponse order base mid.code body) := by
  rintro ⟨named, members, same, values, delivers⟩
  obtain rfl := code_inj same
  obtain ⟨written, hidden, plain, claimed, -⟩ := clock_written (MgmtId.ofCode_code _) answered
  obtain ⟨reached, back, carries⟩ := arrived_of_host (clock_host empty answered) delivers
  have nothing := claimed uncounted
  have filled := @filled_of_empty order base named.code body empty (code_small named)
    (by omega) (by omega)
  rw [nothing] at filled
  have short : load order (Tlv.length.shift ManagementMsg.size) reached.data = 2 := by
    rw [loads_back filled back (by decide) (by decide)]
    exact filled.length
  rw [carries.length] at short
  have room : 2 ≤ room members := by
    obtain ⟨rfl, rfl⟩ := uncounted
    rw [clockValues, if_pos rfl] at values
    obtain rfl := Option.some.inj values
    exact Nat.le_add_right _ _
  unfold evenUp at short
  omega

/-- An offset of UTC that arrives has room. -/
theorem offset_of_delivers {body : ResponseData} (empty : Empty order base)
    (answered : clockResponseData order c now p req MgmtId.grandmasterSettingsNp.code = some body)
    (carried : ClockAnswerCarries order c now p req MgmtId.grandmasterSettingsNp.code
      (finishResponse order base MgmtId.grandmasterSettingsNp.code body)) : OffsetFits c := by
  obtain ⟨named, members, same, values, delivers⟩ := carried
  obtain rfl := code_inj same
  obtain rfl := Option.some.inj values
  obtain ⟨reached, back, carries⟩ := arrived_of_host (clock_host empty answered) delivers
  have holds := carries.values
  have read : (load order ⟨58, 2⟩ reached.data : Int).bmod (256 ^ 2) = c.utcOffset := by
    simp only [settingsMembers, qualityKinds, membersOf, List.cons_append, List.nil_append, Holds,
      Member.width, Member.Reads, octetsAt_length] at holds
    exact holds.2.2.2.1
  have low := @Int.le_bmod (load order ⟨58, 2⟩ reached.data : Int) (256 ^ 2) (by decide)
  have high := @Int.bmod_lt (load order ⟨58, 2⟩ reached.data : Int) (256 ^ 2) (by decide)
  rw [read] at low high
  exact ⟨low, high⟩

/-- An answer of a port carries its data. -/
theorem port_delivers {mid : MgmtId} {body : ResponseData} (empty : Empty order base)
    (answered : portResponseData order c target mid.code = some body) :
    PortAnswerCarries order c target mid.code (finishResponse order base mid.code body) := by
  obtain ⟨members, values, written⟩ := port_written (MgmtId.ofCode_code mid) answered
  have filled := @filled_of_written order base mid members body empty written
  have readable := port_readable values (contains_of_filled filled)
  have host := host_of_filled filled (even_length _) (Nat.le_add_right _ _)
    (fun long => readable.sized (Nat.lt_of_lt_of_eq long filled.length.symm)) ?_
  · refine ⟨mid, members, rfl, values, delivers_of_host host fun _ back => ?_⟩
    refine carries_of_filled filled readable (port_fits values) ?_ back
    rintro rfl
    cases values
  · rintro - rfl
    obtain rfl := Option.some.inj values
    cases answered
    have read := description_read (holds_of_packed (port_fits values) (contains_of_filled filled).octets)
    rw [description_pointers read]
    exact description_cd

/-- What the clock answers to is an identifier that it knows. -/
theorem clock_named {body : ResponseData}
    (answered : clockResponseData order c now p req id = some body) :
    ∃ mid : MgmtId, mid.code = id := by
  cases found : MgmtId.ofCode id with
  | none =>
    rw [clockResponseData, found] at answered
    cases answered
  | some mid => exact ⟨mid, MgmtId.code_of_ofCode found⟩

/-- What a port answers to is an identifier that it knows. -/
theorem port_named {body : ResponseData}
    (answered : portResponseData order c target id = some body) :
    ∃ mid : MgmtId, mid.code = id := by
  cases found : MgmtId.ofCode id with
  | none =>
    rw [portResponseData, found] at answered
    cases answered
  | some mid => exact ⟨mid, MgmtId.code_of_ofCode found⟩

/-- The answer to every identifier carries what the identifier stands for, but for
SUBSCRIBE_EVENTS_NP on the local socket, whose data are not counted, and for an offset of UTC that
does not fit into GRANDMASTER_SETTINGS_NP.

Proof: each answer is packed from a list of members, each with its place and width, and such a list
is read back as it was packed. The data of SUBSCRIBE_EVENTS_NP are written but not counted in the
length; an offset that does not fit is cut to two octets. For both, what is read back is shown to be
another value. -/
theorem answers_carry_data (built : Built order c base) :
    (∀ id msg, clockManagementFillResponse order c now p req base id = some msg →
      (ClockAnswerCarries order c now p req id msg ↔
        ¬(id = MgmtId.subscribeEventsNp.code ∧ p = .uds) ∧
          (id = MgmtId.grandmasterSettingsNp.code → OffsetFits c))) ∧
      ∀ target id msg, portManagementFillResponse order c target base id = some msg →
        PortAnswerCarries order c target id msg := by
  have empty := empty_of_built built
  refine ⟨fun id msg filled => ?_, fun target id msg filled => ?_⟩
  · obtain ⟨body, answered, rfl⟩ := Option.map_eq_some_iff.mp filled
    obtain ⟨mid, rfl⟩ := clock_named answered
    constructor
    · refine fun carried => ⟨fun ⟨same, socket⟩ => ?_, fun same => ?_⟩
      · exact uncounted_delivers empty answered ⟨code_inj same, socket⟩ carried
      · obtain rfl := code_inj same
        exact offset_of_delivers empty answered carried
    · rintro ⟨counted, offset⟩
      refine clock_delivers empty answered (fun ⟨same, socket⟩ => ?_) fun same => ?_
      · exact counted ⟨congrArg MgmtId.code same, socket⟩
      · exact offset (congrArg MgmtId.code same)
  · obtain ⟨body, answered, rfl⟩ := Option.map_eq_some_iff.mp filled
    obtain ⟨mid, rfl⟩ := port_named answered
    exact port_delivers empty answered

end Answering

/-- A GET of an identifier, for every clock and port, with no hops left. -/
def getOctets (id : MgmtId) : List UInt8 :=
  [0x0D, 2, 0, 54] ++ List.replicate 16 0 ++ List.replicate 8 9 ++ [0, 1, 0, 1, 4, 0x7f] ++
    List.replicate 10 0xff ++ [0, 0, 0, 0] ++ [0, 1, 0, 2] ++ image .big 2 id.code

/-- The reply of the local socket to a GET. -/
def replyTo (id : MgmtId) : Message :=
  portManagementReply .little Management.startedClock
    (Management.startedClock.port .uds).portIdentity .uds (Management.requestOf (getOctets id)).msg

/-- A reply on a little-endian host. -/
theorem replyTo_built (id : MgmtId) : Built .little Management.startedClock (replyTo id) :=
  ⟨_, _, Or.inl ⟨_, rfl⟩⟩

/-- The first priority is asked for and answered. -/
theorem answers_carry_data_priority : ∃ msg,
    clockManagementFillResponse .little Management.startedClock 0 .uds
      (Management.requestOf (getOctets .priority1)) (replyTo .priority1) MgmtId.priority1.code =
        some msg ∧
    ClockAnswerCarries .little Management.startedClock 0 .uds
      (Management.requestOf (getOctets .priority1)) MgmtId.priority1.code msg :=
  ⟨_, rfl, ((answers_carry_data (replyTo_built .priority1)).1 _ _ rfl).mpr
    ⟨by decide, fun same => absurd same (by decide)⟩⟩

/-- A subscriber is told nothing of its subscription. -/
theorem subscription_lost : ∃ msg,
    clockManagementFillResponse .little Management.startedClock 0 .uds
      (Management.requestOf (getOctets .subscribeEventsNp)) (replyTo .subscribeEventsNp)
      MgmtId.subscribeEventsNp.code = some msg ∧
    ¬ClockAnswerCarries .little Management.startedClock 0 .uds
      (Management.requestOf (getOctets .subscribeEventsNp)) MgmtId.subscribeEventsNp.code msg :=
  ⟨_, rfl, uncounted_delivers (empty_of_built (replyTo_built .subscribeEventsNp)) rfl ⟨rfl, rfl⟩⟩

end LinuxPtp.ManagementAnswers
