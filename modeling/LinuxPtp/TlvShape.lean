import LinuxPtp.TlvGrammar

/-!
# The shape of a TLV

The listed fields of a well-sized TLV lie inside it and apart from one another,
and so does the third part of a `ScaledNs`. A reading that agrees on the listed
words and on the octets outside all fields describes the same TLV. Converting
the fields between byte orders produces such a reading, which is why either
direction finds what the other left.
-/

namespace LinuxPtp

open Octets

namespace Reading

/-! ## Fields lie inside the TLV and apart from each other -/

theorem evenUp_ge (size : Nat) : size ≤ evenUp size := Nat.le_add_right _ _

/-- The numbers in the data of an identifier do not overlap. -/
theorem dataSetFields_separate (id : ManagementId) : (dataSetFields id).Pairwise Field.Apart := by
  cases id <;> decide

/-- They are inside of the data. -/
theorem dataSetFields_inside {id : ManagementId} {size : Nat} (sized : dataSetSize id = some size) :
    ∀ field ∈ dataSetFields id, field.stop ≤ size := by
  cases id <;> simp [dataSetSize] at sized <;> subst sized <;> decide

theorem followUpInfoFields_separate : followUpInfoFields.Pairwise Field.Apart := by decide

theorem followUpInfoFields_bounds :
    ∀ field ∈ followUpInfoFields, 10 ≤ field.offset ∧ field.stop ≤ 32 := by decide

theorem nsmRespFootFields_separate : nsmRespFootFields.Pairwise Field.Apart := by decide

theorem nsmRespFootFields_inside : ∀ field ∈ nsmRespFootFields, field.stop ≤ 64 := by decide

theorem shift_separate {fields : List Field} (base : Nat) (separate : fields.Pairwise Field.Apart) :
    (fields.map (·.shift base)).Pairwise Field.Apart :=
  List.Pairwise.map _ (fun _ _ apart => Field.shift_apart base apart) separate

/-- Shifted fields lie in the shifted bounds. -/
theorem shift_bounds {fields : List Field} {base size : Nat}
    (inside : ∀ field ∈ fields, field.stop ≤ size) :
    ∀ field ∈ fields.map (·.shift base), base ≤ field.offset ∧ field.stop ≤ base + size := by
  intro field member
  obtain ⟨original, present, rfl⟩ := List.mem_map.mp member
  have bounded := inside original present
  simp only [Field.shift_offset, Field.shift_stop]
  omega

/-- Fields that start where another list of fields has ended are apart from it. -/
theorem separate_append {left right : List Field} (border : Nat)
    (leftSeparate : left.Pairwise Field.Apart) (rightSeparate : right.Pairwise Field.Apart)
    (below : ∀ field ∈ left, field.stop ≤ border) (above : ∀ field ∈ right, border ≤ field.offset) :
    (left ++ right).Pairwise Field.Apart :=
  List.pairwise_append.mpr ⟨leftSeparate, rightSeparate, fun first inLeft second inRight =>
    Or.inl (Nat.le_trans (below first inLeft) (above second inRight))⟩

variable (reading : Reading)

/-- The members of a clock description are in order. -/
theorem description_order :
    9 ≤ reading.physicalAddress ∧ reading.physicalAddress + 2 ≤ reading.protocolAddress ∧
      reading.protocolAddress + 4 ≤ reading.manufacturerIdentity ∧
      reading.manufacturerIdentity + 17 ≤ reading.descriptionStop + 4 := by
  simp only [physicalAddress, protocolAddress, manufacturerIdentity, productDescription,
    revisionData, userDescription, profileIdentity, descriptionStop]
  omega

theorem managementFields_start : ∀ field ∈ reading.managementFields, 6 ≤ field.offset := by
  have order := reading.description_order
  intro field member
  unfold managementFields at member
  split at member
  · simp only [List.mem_cons, List.not_mem_nil, or_false] at member
    rcases member with rfl | rfl | rfl | rfl <;> simp only <;> omega
  · obtain ⟨original, _, rfl⟩ := List.mem_map.mp member
    simp [ManagementTlv.data]

/-- The numbers in a management TLV do not overlap, whatever its identifier. -/
theorem managementFields_separate : reading.managementFields.Pairwise Field.Apart := by
  have order := reading.description_order
  unfold managementFields
  split
  · simp only [List.pairwise_cons, List.mem_cons, List.not_mem_nil, or_false, forall_eq_or_imp,
      forall_eq, Field.Apart, Field.stop]
    refine ⟨?_, ?_, ?_, ?_, List.Pairwise.nil⟩ <;> first | omega | simp
  · exact shift_separate _ (dataSetFields_separate _)

variable {reading}

/-- They are inside of it if its length is right. -/
theorem managementFields_inside (sized : reading.ManagementSized) (data : 2 < reading.length) :
    ∀ field ∈ reading.managementFields, field.stop ≤ 4 + reading.length := by
  have order := reading.description_order
  have round := evenUp_ge (reading.descriptionStop - 6)
  unfold ManagementSized at sized
  unfold managementFields
  cases id : reading.managementId <;> simp only [id] at sized ⊢
  case clockDescription =>
    simp only [List.mem_cons, List.not_mem_nil, or_false, forall_eq_or_imp, forall_eq, Field.stop]
    omega
  case portPropertiesNp =>
    have round := evenUp_ge (13 + reading.octet 18)
    simp [dataSetFields, ManagementTlv.data, PortPropertiesNp.portNumber, Field.stop, Field.shift]
    omega
  case userDescription => simp [dataSetFields]
  case other => simp [dataSetFields]
  all_goals
    intro field member
    have size := sized _ rfl
    have bounds := shift_bounds (dataSetFields_inside (by rfl)) field member
    simp only [ManagementTlv.data] at bounds
    omega

theorem valueFields_start : ∀ field ∈ reading.valueFields, 4 ≤ field.offset := by
  intro field member
  unfold valueFields at member
  split at member
  · rcases List.mem_cons.mp member with rfl | member
    · decide
    · split at member
      · have start := reading.managementFields_start field member
        omega
      · simp at member
  · revert field
    decide
  · split at member
    · have bounds := followUpInfoFields_bounds field member
      omega
    · simp at member
  · rcases List.mem_append.mp member with member | member
    · have starts : ∀ field ∈ [NsmRespTlvHead.networkProtocol, NsmRespTlvHead.addressLength],
          4 ≤ field.offset := by decide
      exact starts field member
    · have bounds := shift_bounds nsmRespFootFields_inside field member
      simp only [NsmRespTlvHead.size] at bounds
      omega
  all_goals simp at member

/-- The numbers in the value of any TLV are inside of it, as the parser has checked its length. -/
theorem valueFields_inside (sized : reading.WellSized) :
    ∀ field ∈ reading.valueFields, field.stop ≤ 4 + reading.length := by
  intro field member
  unfold WellSized at sized
  unfold valueFields at member
  cases type : reading.type <;> simp only [type] at sized member
  case management =>
    rcases List.mem_cons.mp member with rfl | member
    · simp only [ManagementTlv.id, Field.stop]
      omega
    · split at member
      case isTrue data => exact managementFields_inside (sized.2 data) data field member
      case isFalse => simp at member
  case managementErrorStatus =>
    have bounds : ∀ field ∈ [ManagementErrorStatus.error, ManagementErrorStatus.id],
        field.stop ≤ 8 := by decide
    have bound := bounds field member
    omega
  case organizationExtension =>
    split at member
    case isTrue info =>
      have bounds := followUpInfoFields_bounds field member
      have size := sized.2 info
      omega
    case isFalse => simp at member
  case ptpmonResp =>
    rcases List.mem_append.mp member with member | member
    · have bounds : ∀ field ∈ [NsmRespTlvHead.networkProtocol, NsmRespTlvHead.addressLength],
          field.stop ≤ 10 := by decide
      have bound := bounds field member
      omega
    · have bounds := shift_bounds nsmRespFootFields_inside field member
      simp only [NsmRespTlvHead.size] at bounds
      omega
  all_goals simp at member

/-- They do not overlap. -/
theorem valueFields_separate : reading.valueFields.Pairwise Field.Apart := by
  unfold valueFields
  split
  · change ([ManagementTlv.id] ++ if 2 < reading.length then reading.managementFields
      else []).Pairwise Field.Apart
    refine separate_append 6 (List.pairwise_singleton _ _) ?_ (by decide) ?_
    · split
      · exact reading.managementFields_separate
      · exact List.Pairwise.nil
    · intro field member
      split at member
      · exact reading.managementFields_start field member
      · simp at member
  · decide
  · split
    · exact followUpInfoFields_separate
    · exact List.Pairwise.nil
  · refine separate_append 10 (by decide)
      (shift_separate _ nsmRespFootFields_separate) (by decide) ?_
    intro field member
    have bounds := shift_bounds nsmRespFootFields_inside field member
    simp only [NsmRespTlvHead.size] at bounds
    omega
  all_goals exact List.Pairwise.nil

/-- Every listed field lies inside the TLV. -/
theorem fields_inside (sized : reading.WellSized) :
    ∀ field ∈ reading.fields, field.stop ≤ 4 + reading.length := by
  intro field member
  rcases List.mem_cons.mp member with rfl | member
  · simp [Tlv.type, Field.stop]
    omega
  · rcases List.mem_cons.mp member with rfl | member
    · simp [Tlv.length, Field.stop]
    · exact valueFields_inside sized field member

/-- No two listed fields overlap. -/
theorem fields_separate : reading.fields.Pairwise Field.Apart := by
  change ([Tlv.type, Tlv.length] ++ reading.valueFields).Pairwise Field.Apart
  exact separate_append 4 (by decide) valueFields_separate (by decide) valueFields_start

/-- A `ScaledNs` has its two converted parts among the listed fields, and its
third part lies inside the TLV apart from all of them. -/
structure ScaledNsPlaced (reading : Reading) (base : Nat) : Prop where
  msb : ScaledNs.nanosecondsMsb.shift base ∈ reading.fields
  apart : ∀ field ∈ reading.fields, (ScaledNs.nanosecondsLsb.shift base).Apart field
  inside : (ScaledNs.nanosecondsLsb.shift base).stop ≤ 4 + reading.length
  start : 10 ≤ base

/-- Where a TLV carries a `ScaledNs`, it has room for it behind its head. -/
theorem scaledNs_placed (sized : reading.WellSized) {base : Nat}
    (found : reading.scaledNs = some base) : ScaledNsPlaced reading base := by
  unfold WellSized at sized
  unfold scaledNs at found
  cases type : reading.type <;> simp only [type] at sized found
  case management =>
    split at found
    case isTrue status =>
      obtain ⟨data, id⟩ := status
      obtain rfl : ManagementTlv.data + TimeStatusNp.lastGmPhaseChange = base :=
        Option.some.inj found
      have size : reading.length = 2 + TimeStatusNp.size := by
        have demanded := sized.2 data
        simp only [ManagementSized, id] at demanded
        exact demanded _ rfl
      have same : reading.fields = [Tlv.type, Tlv.length, ManagementTlv.id] ++
          (dataSetFields .timeStatusNp).map (·.shift ManagementTlv.data) := by
        simp [fields, valueFields, type, data, managementFields, id]
      constructor
      · rw [same]
        decide
      · rw [same]
        decide
      · rw [size]
        decide
      · decide
    case isFalse => simp at found
  case organizationExtension =>
    split at found
    case isTrue info =>
      obtain rfl : FollowUpInfoTlv.lastGmPhaseChange = base := Option.some.inj found
      have same : reading.fields = [Tlv.type, Tlv.length] ++ followUpInfoFields := by
        simp [fields, valueFields, type, info]
      constructor
      · rw [same]
        decide
      · rw [same]
        decide
      · rw [sized.2 info]
        decide
      · decide
    case isFalse => simp at found
  all_goals simp at found

/-! ## The shape is stable under conversion of the fields -/

/-- Two readings of a TLV that describe it in the same way. -/
structure SameShape (left right : Reading) : Prop where
  length : right.length = left.length
  type : right.type = left.type
  fields : right.fields = left.fields
  scaledNs : right.scaledNs = left.scaledNs
  descriptor : ∀ start, right.descriptor start = left.descriptor start
  sized : right.WellSized

/-- Two readings agree on the listed two-octet fields and on every octet of the
TLV that belongs to no field. -/
structure Agrees (left right : Reading) : Prop where
  words : ∀ field ∈ left.fields, field.width = 2 → right.word field.offset = left.word field.offset
  octets : ∀ index < 4 + left.length, (∀ field ∈ left.fields, ¬ field.Covers index) →
    (∀ base, left.scaledNs = some base → ¬ (ScaledNs.nanosecondsLsb.shift base).Covers index) →
    right.octet index = left.octet index

/-- A clock description is laid out alike in agreeing readings: each position is
found from words and octets that were already seen to agree. -/
theorem description_stable {left right : Reading} (agrees : Agrees left right)
    (type : left.type = .management) (data : 2 < left.length)
    (id : left.managementId = .clockDescription) (sized : left.ManagementSized) :
    right.physicalAddress = left.physicalAddress ∧
      right.word left.physicalAddress = left.word left.physicalAddress ∧
      right.protocolAddress = left.protocolAddress ∧
      right.word (left.protocolAddress + 2) = left.word (left.protocolAddress + 2) ∧
      right.manufacturerIdentity = left.manufacturerIdentity ∧
      right.productDescription = left.productDescription ∧
      right.revisionData = left.revisionData ∧
      right.userDescription = left.userDescription ∧
      right.profileIdentity = left.profileIdentity ∧
      right.descriptionStop = left.descriptionStop := by
  obtain ⟨start, first, second, third⟩ := left.description_order
  have listed : left.fields = [⟨0, 2⟩, ⟨2, 2⟩, ⟨4, 2⟩, ⟨6, 2⟩, ⟨left.physicalAddress, 2⟩,
      ⟨left.protocolAddress, 2⟩, ⟨left.protocolAddress + 2, 2⟩] := by
    simp [fields, valueFields, type, data, managementFields, id, Tlv.type, Tlv.length,
      ManagementTlv.id]
  have noScaled : left.scaledNs = none := by simp [Reading.scaledNs, type, id]
  have words := agrees.words
  rw [listed] at words
  have stop : left.descriptionStop ≤ 4 + left.length := by
    simp only [ManagementSized, id] at sized
    have round := evenUp_ge (left.descriptionStop - 6)
    omega
  have octets : ∀ index < left.descriptionStop, index = 8 ∨ left.manufacturerIdentity ≤ index →
      right.octet index = left.octet index := by
    intro index inside place
    refine agrees.octets index (by omega) ?_ (by simp [noScaled])
    rw [listed]
    simp only [List.mem_cons, List.not_mem_nil, or_false, forall_eq_or_imp, forall_eq,
      Field.Covers, Field.stop]
    omega
  have product : left.productDescription = left.manufacturerIdentity + 4 := rfl
  have revision : left.revisionData =
    left.productDescription + 1 + left.octet left.productDescription := rfl
  have user : left.userDescription =
    left.revisionData + 1 + left.octet left.revisionData := rfl
  have profile : left.profileIdentity =
    left.userDescription + 1 + left.octet left.userDescription := rfl
  have stopEq : left.descriptionStop = left.profileIdentity + 6 := rfl
  have physicalAddress : right.physicalAddress = left.physicalAddress := by
    simp only [Reading.physicalAddress, octets 8 (by omega) (Or.inl rfl)]
  have physicalWord := words ⟨left.physicalAddress, 2⟩ (by simp) rfl
  have protocolAddress : right.protocolAddress = left.protocolAddress := by
    simp only [Reading.protocolAddress, physicalAddress, physicalWord]
  have protocolWord := words ⟨left.protocolAddress + 2, 2⟩ (by simp) rfl
  have manufacturer : right.manufacturerIdentity = left.manufacturerIdentity := by
    simp only [Reading.manufacturerIdentity, protocolAddress, protocolWord]
  have productDescription : right.productDescription = left.productDescription := by
    simp only [Reading.productDescription, manufacturer]
  have revisionData : right.revisionData = left.revisionData := by
    simp only [Reading.revisionData, productDescription,
      octets left.productDescription (by omega) (Or.inr (by omega))]
  have userDescription : right.userDescription = left.userDescription := by
    simp only [Reading.userDescription, revisionData,
      octets left.revisionData (by omega) (Or.inr (by omega))]
  have profileIdentity : right.profileIdentity = left.profileIdentity := by
    simp only [Reading.profileIdentity, userDescription,
      octets left.userDescription (by omega) (Or.inr (by omega))]
  exact ⟨physicalAddress, physicalWord, protocolAddress, protocolWord, manufacturer,
    productDescription, revisionData, userDescription, profileIdentity, by
      simp only [Reading.descriptionStop, profileIdentity]⟩

/-- Two readings that agree on the words of the head name the same identifier. -/
theorem managementId_stable {left right : Reading} (agrees : Agrees left right)
    (type : left.type = .management) : right.managementId = left.managementId := by
  have member : ManagementTlv.id ∈ left.fields := by simp [fields, valueFields, type]
  have word := agrees.words ManagementTlv.id member rfl
  simp only [managementId, show right.word 4 = left.word 4 from word]

/-- Management data keep their size and fields in agreeing readings. -/
theorem management_stable {left right : Reading} (agrees : Agrees left right)
    (length : right.length = left.length) (type : left.type = .management)
    (data : 2 < left.length) (sized : left.ManagementSized) :
    right.managementFields = left.managementFields ∧ right.ManagementSized ∧
      ∀ start, left.managementId = .clockDescription →
        right.clockDescription start = left.clockDescription start := by
  have sameId := managementId_stable agrees type
  -- an octet of the data that is neither in a field nor in a `ScaledNs`
  have plain : ∀ index, left.managementId ≠ .timeStatusNp → index < 4 + left.length → 6 ≤ index →
      (∀ field ∈ left.managementFields, ¬ field.Covers index) →
      right.octet index = left.octet index := by
    intro index notStatus inside start outside
    refine agrees.octets index inside ?_ ?_
    · have listed : left.fields =
          Tlv.type :: Tlv.length :: ManagementTlv.id :: left.managementFields := by
        simp [fields, valueFields, type, data]
      rw [listed]
      simp only [List.mem_cons, forall_eq_or_imp]
      refine ⟨?_, ?_, ?_, outside⟩ <;>
        simp only [Tlv.type, Tlv.length, ManagementTlv.id, Field.Covers, Field.stop] <;> omega
    · simp [Reading.scaledNs, type, notStatus]
  unfold managementFields ManagementSized
  rw [sameId, length]
  cases id : left.managementId <;> simp only [ManagementSized, id] at sized ⊢
  case clockDescription =>
    obtain ⟨physical, physicalWord, protocol, protocolWord, manufacturer, product, revision, user,
      profile, stop⟩ := description_stable agrees type data id (by simpa only [ManagementSized, id])
    refine ⟨by rw [physical, protocol], ?_, fun start _ => ?_⟩
    · rw [physical, protocol, physicalWord, protocolWord, stop]
      exact sized
    · simp only [clockDescription, physical, protocol, manufacturer, product, revision, user,
        profile]
  case userDescription =>
    have octet := plain 6 (by simp [id])
      (by omega) (by omega) (by simp [managementFields, id, dataSetFields])
    rw [octet]
    exact ⟨trivial, sized, by simp⟩
  case portPropertiesNp =>
    have round := evenUp_ge (13 + left.octet 18)
    have octet := plain 18 (by simp [id])
      (by omega) (by omega) (by
        simp [managementFields, id, dataSetFields, Field.Covers, Field.shift, Field.stop,
          ManagementTlv.data, PortPropertiesNp.portNumber])
    rw [octet]
    exact ⟨trivial, sized, by simp⟩
  all_goals exact ⟨trivial, sized, by simp⟩

theorem followUpInfo_stable {left right : Reading} (agrees : Agrees left right)
    (type : left.type = .organizationExtension) (length : 6 ≤ left.length) :
    right.IsFollowUpInfo ↔ left.IsFollowUpInfo := by
  have octets : ∀ index, 4 ≤ index → index < 10 → right.octet index = left.octet index := by
    intro index low high
    refine agrees.octets index (by omega) ?_ ?_
    · intro field member
      rcases List.mem_cons.mp member with rfl | member
      · simp only [Tlv.type, Field.Covers, Field.stop]
        omega
      rcases List.mem_cons.mp member with rfl | member
      · simp only [Tlv.length, Field.Covers, Field.stop]
        omega
      simp only [valueFields, type] at member
      split at member
      · have bounds := followUpInfoFields_bounds field member
        simp only [Field.Covers]
        omega
      · simp at member
    · intro base found
      simp only [Reading.scaledNs, type] at found
      split at found
      · obtain rfl := Option.some.inj found
        simp only [FollowUpInfoTlv.lastGmPhaseChange, ScaledNs.nanosecondsLsb, Field.shift,
          Field.Covers, Field.stop]
        omega
      · simp at found
  simp only [IsFollowUpInfo, octets 4 (by omega) (by omega), octets 5 (by omega) (by omega),
    octets 6 (by omega) (by omega), octets 7 (by omega) (by omega), octets 8 (by omega) (by omega),
    octets 9 (by omega) (by omega)]

/-- Whatever keeps the listed fields' numbers and the uncovered octets keeps the
whole shape of a well-sized TLV. -/
theorem shape_stable {left right : Reading} (agrees : Agrees left right)
    (sized : left.WellSized) : SameShape left right := by
  have word0 : right.word 0 = left.word 0 := agrees.words Tlv.type (by simp [fields]) rfl
  have word2 : right.word 2 = left.word 2 := agrees.words Tlv.length (by simp [fields]) rfl
  have type : right.type = left.type := by simp only [Reading.type, word0]
  have length : right.length = left.length := word2
  unfold WellSized at sized
  cases kind : left.type <;> simp only [kind] at sized
  case management =>
    have sameId := managementId_stable agrees kind
    by_cases data : 2 < left.length
    · obtain ⟨fields, rightSized, description⟩ :=
        management_stable agrees length kind data (sized.2 data)
      refine ⟨length, type, ?_, ?_, ?_, ?_⟩
      · simp only [Reading.fields, valueFields, type, kind, length, data, if_true, fields]
      · simp only [Reading.scaledNs, type, kind, length, sameId]
      · intro start
        simp only [descriptor, type, kind, length, data, if_true, sameId]
        cases id : left.managementId <;> simp [description start, id]
      · simp only [WellSized, type, kind, length]
        exact ⟨sized.1, fun _ => rightSized⟩
    · refine ⟨length, type, ?_, ?_, ?_, ?_⟩
      · simp only [Reading.fields, valueFields, type, kind, length, data, if_false]
      · simp only [Reading.scaledNs, type, kind, length, data, false_and, if_false]
      · intro start
        simp only [descriptor, type, kind, length, data, if_false]
      · simp only [WellSized, type, kind, length]
        exact ⟨sized.1, fun more => absurd more data⟩
  case organizationExtension =>
    have info := followUpInfo_stable agrees kind sized.1
    refine ⟨length, type, ?_, ?_, ?_, ?_⟩
    · simp only [Reading.fields, valueFields, type, kind, info]
    · simp only [Reading.scaledNs, type, kind, info]
    · intro start
      simp only [descriptor, type, kind]
    · simp only [WellSized, type, kind, length, info]
      exact sized
  case ptpmonResp =>
    have listed : ∀ field ∈ [NsmRespTlvHead.networkProtocol, NsmRespTlvHead.addressLength],
        field ∈ left.fields := by
      intro field member
      simp only [Reading.fields, valueFields, kind]
      exact List.mem_cons_of_mem _ (List.mem_cons_of_mem _ (List.mem_append_left _ member))
    have word6 : right.word 6 = left.word 6 :=
      agrees.words NsmRespTlvHead.networkProtocol (listed _ (by simp)) rfl
    have word8 : right.word 8 = left.word 8 :=
      agrees.words NsmRespTlvHead.addressLength (listed _ (by simp)) rfl
    refine ⟨length, type, ?_, ?_, ?_, ?_⟩
    · simp only [Reading.fields, valueFields, type, kind, word8]
    · simp only [Reading.scaledNs, type, kind]
    · intro start
      simp only [descriptor, type, kind, word8]
    · simp only [WellSized, type, kind, length, word6, word8]
      exact sized
  all_goals
    refine ⟨length, type, ?_, ?_, ?_, ?_⟩
    · simp only [Reading.fields, valueFields, type, kind]
    · simp only [Reading.scaledNs, type, kind]
    · intro start
      simp only [descriptor, type, kind]
    · simp only [WellSized, type, kind, length]
      try exact sized

end Reading

end LinuxPtp
