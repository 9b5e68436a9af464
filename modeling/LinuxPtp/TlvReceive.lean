import LinuxPtp.ParseRules
import LinuxPtp.TlvTranscode

/-!
# What receiving a TLV does

`tlv_post_recv` accepts exactly the well-sized TLVs, describes them by the
grammar's descriptor and rewrites their octets as `tlvIn` says. One lemma treats
each sub-parser; every one of them reads the TLV as the wire shows it, although
part of the buffer is converted already, because the fields converted so far
end before the octets still to be read.
-/

namespace LinuxPtp

open Octets Recv

section Receiving

variable (order : ByteOrder)

/-! ## Octets that are not converted yet -/

/-- A conversion leaves the octets after its field as they were. -/
theorem convert_beyond {field : Field} {data wire : Storage} {border after : Nat}
    (same : ∀ index, border ≤ index → data index = wire index) (ahead : border ≤ after)
    (ended : field.stop ≤ after) :
    ∀ index, after ≤ index → convert order field data index = wire index := by
  intro index beyond
  rw [convert_outside (fun inside => Nat.not_lt.mpr (ended.trans beyond) inside.2)]
  exact same index (ahead.trans beyond)

theorem load_beyond {reader : ByteOrder} {field : Field} {data wire : Storage} {border : Nat}
    (same : ∀ index, border ≤ index → data index = wire index) (ahead : border ≤ field.offset) :
    load reader field data = load reader field wire :=
  load_congr reader field fun index inside => same index (ahead.trans inside.1)

/-- Reading an octet behind the converted part gives the octet on the wire. -/
theorem octet_bind {β : Type} {first stop border start : Nat} {data wire : Storage}
    {next : Nat → Recv β} {condition : Prop} {final : β} {last : Storage} {reading : Reading}
    (position : Nat) (sameReading : reading = readingAt .big wire start)
    (same : ∀ index, border ≤ index → data index = wire index) (ahead : border ≤ start + position)
    (low : first ≤ start + position) (high : start + position + 1 ≤ stop)
    (continued : Decides first stop (next (reading.octet position)) data condition final last) :
    Decides first stop (octet (start + position) >>= next) data condition final last := by
  have yielded : Yields first stop (octet (start + position)) data _ data :=
    yields_octet low high
  rw [same _ ahead] at yielded
  subst sameReading
  exact yields_bind yielded continued

/-- `flip16` behind the converted part returns the word on the wire, and moves
the border behind its field. -/
theorem flip16_bind {β : Type} {first stop border start : Nat} {data wire : Storage}
    {next : Nat → Recv β} {condition : Prop} {final : β} {last : Storage} {reading : Reading}
    (position : Nat) (sameReading : reading = readingAt .big wire start)
    (same : ∀ index, border ≤ index → data index = wire index) (ahead : border ≤ start + position)
    (low : first ≤ start + position) (high : start + position + 2 ≤ stop)
    (continued : (∀ index, start + position + 2 ≤ index →
        convert order ⟨start + position, 2⟩ data index = wire index) →
      Decides first stop (next (reading.word position))
        (convert order ⟨start + position, 2⟩ data) condition final last) :
    Decides first stop (flip16 order (start + position) >>= next) data condition final last := by
  have yielded : Yields first stop (flip16 order (start + position)) data _ _ :=
    yields_flip16 order low high
  have word : load .big ⟨start + position, 2⟩ data = reading.word position := by
    rw [load_beyond same ahead, sameReading]
    rfl
  rw [word] at yielded
  exact yields_bind yielded (continued (convert_beyond order same (by omega) (Nat.le_refl _)))

/-! ## Sub-parsers -/

/-- The two converted parts of a `ScaledNs` and the overwritten third. -/
theorem yields_scaledNsN2h {first stop base : Nat} {data : Storage} (low : first ≤ base)
    (high : base + ScaledNs.size ≤ stop) :
    Yields first stop (scaledNsN2h order base) data ()
      (store .big (ScaledNs.nanosecondsLsb.shift base)
        (load .big (ScaledNs.nanosecondsMsb.shift base) data)
        (convertAll order [ScaledNs.nanosecondsMsb.shift base,
          ScaledNs.fractionalNanoseconds.shift base] data)) := by
  have size : base + 12 ≤ stop := high
  have msb : first ≤ (ScaledNs.nanosecondsMsb.shift base).offset ∧
      (ScaledNs.nanosecondsMsb.shift base).stop ≤ stop := by
    simp only [ScaledNs.nanosecondsMsb, Field.shift, Field.stop]
    omega
  have lsb : first ≤ (ScaledNs.nanosecondsLsb.shift base).offset ∧
      (ScaledNs.nanosecondsLsb.shift base).stop ≤ stop := by
    simp only [ScaledNs.nanosecondsLsb, Field.shift, Field.stop]
    omega
  have fraction : first ≤ (ScaledNs.fractionalNanoseconds.shift base).offset ∧
      (ScaledNs.fractionalNanoseconds.shift base).stop ≤ stop := by
    simp only [ScaledNs.fractionalNanoseconds, Field.shift, Field.stop]
    omega
  exact yields_bind (yields_ntoh order msb.1 msb.2) (yields_bind (yields_host order msb.1 msb.2)
    (yields_bind (yields_store order _ lsb.1 lsb.2)
      (decides_cast (yields_ntoh order fraction.1 fraction.2) (fun _ => rfl)
        fun _ => scaledNs_transcode order base data)))

/-- `advance` moves over a member if the data up to the limit hold it. -/
theorem advance_bind {β : Type} {first stop buf size : Nat} {len : Int} {data : Storage}
    {next : Nat × Int → Recv β} {condition : Prop} {final : β} {last : Storage}
    (limit target : Nat) (here : buf + size = target) (left : len = limit - buf)
    (required : condition → target ≤ limit)
    (continued : target ≤ limit →
      Decides first stop (next (target, limit - target)) data condition final last) :
    Decides first stop (advance buf len size >>= next) data condition final last := by
  have moved : Decides first stop (advance buf len size) data (target ≤ limit)
      (target, (limit : Int) - target) data := by
    refine require_bind (fun room => by omega) fun room => decides_of_yields (by omega) ?_
    have rest : len - size = (limit : Int) - target := by omega
    rw [here, rest]
    exact yields_pure _
  exact decides_bind moved required continued

/-- The members of a clock description are found where the grammar puts them,
and the description is accepted when its two addresses are short enough and its
last member ends within the data. -/
theorem decides_clockDescription {start limit dataLen : Nat} {data wire : Storage}
    {reading : Reading} (sameReading : reading = readingAt .big wire start)
    (same : ∀ index, start + 6 ≤ index → data index = wire index)
    (size : start + 6 + dataLen = limit) :
    Decides start limit (clockDescriptionPostRecv order (start + 6) dataLen) data
      (reading.word reading.physicalAddress ≤ transportAddrLen ∧
        reading.word (reading.protocolAddress + 2) ≤ transportAddrLen ∧
        start + reading.descriptionStop ≤ limit)
      (reading.clockDescription start, reading.descriptionStop - 6)
      (convertAll order [⟨start + 6, 2⟩, ⟨start + reading.physicalAddress, 2⟩,
        ⟨start + reading.protocolAddress, 2⟩, ⟨start + (reading.protocolAddress + 2), 2⟩] data) := by
  have physicalAddress : reading.physicalAddress = 9 + reading.octet 8 := rfl
  have protocolAddress : reading.protocolAddress =
    reading.physicalAddress + 2 + reading.word reading.physicalAddress := rfl
  have manufacturerIdentity : reading.manufacturerIdentity =
    reading.protocolAddress + 4 + reading.word (reading.protocolAddress + 2) := rfl
  have productDescription : reading.productDescription = reading.manufacturerIdentity + 4 := rfl
  have revisionData : reading.revisionData =
    reading.productDescription + 1 + reading.octet reading.productDescription := rfl
  have userDescription : reading.userDescription =
    reading.revisionData + 1 + reading.octet reading.revisionData := rfl
  have profileIdentity : reading.profileIdentity =
    reading.userDescription + 1 + reading.octet reading.userDescription := rfl
  have descriptionStop : reading.descriptionStop = reading.profileIdentity + 6 := rfl
  unfold clockDescriptionPostRecv
  -- clockType, physicalLayerProtocol
  refine advance_bind limit (start + 8) rfl (by omega) (by omega) fun room => ?_
  refine flip16_bind order 6 sameReading same (by omega) (by omega) (by omega) fun same => ?_
  refine advance_bind limit (start + 9) rfl rfl (by omega) fun room => ?_
  refine octet_bind 8 sameReading same (by omega) (by omega) (by omega) ?_
  refine advance_bind limit (start + reading.physicalAddress) (by omega) rfl (by omega)
    fun room => ?_
  -- physicalAddress
  refine advance_bind limit (start + reading.physicalAddress + 2) rfl rfl (by omega)
    fun room => ?_
  refine flip16_bind order reading.physicalAddress sameReading same (by omega) (by omega)
    (by omega) fun same => ?_
  refine require_bind (fun fits => fits.1) fun physicalShort => ?_
  refine advance_bind limit (start + reading.protocolAddress) (by omega) rfl (by omega)
    fun room => ?_
  -- protocolAddress
  refine advance_bind limit (start + reading.protocolAddress + 4) rfl rfl (by omega)
    fun room => ?_
  refine flip16_bind order reading.protocolAddress sameReading same (by omega) (by omega)
    (by omega) fun same => ?_
  refine flip16_bind order (reading.protocolAddress + 2) sameReading same (by omega) (by omega)
    (by omega) fun same => ?_
  refine require_bind (fun fits => fits.2.1) fun protocolShort => ?_
  refine advance_bind limit (start + reading.manufacturerIdentity) (by omega) rfl (by omega)
    fun room => ?_
  -- manufacturerIdentity, productDescription
  refine advance_bind limit (start + reading.productDescription) rfl rfl (by omega) fun room => ?_
  refine advance_bind limit (start + reading.productDescription + 1) rfl rfl (by omega)
    fun room => ?_
  refine octet_bind reading.productDescription sameReading same (by omega) (by omega) (by omega) ?_
  refine advance_bind limit (start + reading.revisionData) (by omega) rfl (by omega)
    fun room => ?_
  -- revisionData
  refine advance_bind limit (start + reading.revisionData + 1) rfl rfl (by omega) fun room => ?_
  refine octet_bind reading.revisionData sameReading same (by omega) (by omega) (by omega) ?_
  refine advance_bind limit (start + reading.userDescription) (by omega) rfl (by omega)
    fun room => ?_
  -- userDescription
  refine advance_bind limit (start + reading.userDescription + 1) rfl rfl (by omega)
    fun room => ?_
  refine octet_bind reading.userDescription sameReading same (by omega) (by omega) (by omega) ?_
  refine advance_bind limit (start + reading.profileIdentity) (by omega) rfl (by omega)
    fun room => ?_
  -- profileIdentity
  refine advance_bind limit (start + reading.descriptionStop) rfl rfl (by omega) fun room => ?_
  refine decides_cast (decides_of_yields ⟨physicalShort, protocolShort, room⟩ (yields_pure _))
    (fun _ => ?_) fun _ => rfl
  have stop : start + reading.descriptionStop - (start + 6) = reading.descriptionStop - 6 := by
    omega
  rw [stop]
  rfl

/-- A data set is accepted with exactly its own size, and its fields are converted. -/
theorem decides_dataSet {start limit dataLen size : Nat} {data : Storage} {fields : List Field}
    (inside : ∀ field ∈ fields, field.stop ≤ size) (available : start + 6 + dataLen = limit) :
    Decides start limit (dataSetPostRecv order (start + 6) dataLen size fields) data
      (dataLen = size) () (convertAll order (fields.map (·.shift (start + 6))) data) := by
  refine require_bind id fun sized => decides_of_yields sized (yields_ntohAll order _ _ ?_)
  intro field member
  have bound := inside field member
  omega

/-- The data of a length that depends on them fill the TLV up to one octet. -/
theorem decides_checkExtraLen {start limit length extraLen : Nat} {data : Storage}
    (stored : load order (Tlv.length.shift start) data = length) (some : extraLen ≠ 0)
    (room : start + 4 ≤ limit) :
    Decides start limit (checkExtraLen order start extraLen) data
      (length = 2 + evenUp extraLen) () data := by
  unfold checkExtraLen
  rw [if_pos some]
  have low : start ≤ (Tlv.length.shift start).offset := Nat.le_add_right _ _
  have high : (Tlv.length.shift start).stop ≤ limit := room
  refine yields_bind (yields_host order low high) ?_
  rw [stored]
  refine decides_congr (decides_require _) ?_
  simp only [evenUp, ManagementTlv.id]
  omega

section Management

variable {start : Nat} {data wire : Storage} {reading : Reading}

/-- The case of a data set without `ScaledNs`: its size is the whole condition. -/
theorem decides_dataSetCase (id : ManagementId) {size : Nat}
    (sized : Reading.dataSetSize id = some size) (more : 2 < reading.length) :
    Decides start (start + 4 + reading.length)
      (do
        dataSetPostRecv order (start + ManagementTlv.data) (reading.length - ManagementTlv.id.width)
          size (Reading.dataSetFields id)
        pure { tlv := start })
      data (∀ demanded, Reading.dataSetSize id = some demanded → reading.length = 2 + demanded)
      ({ tlv := start } : TlvExtra)
      (convertAll order (((Reading.dataSetFields id).map (·.shift ManagementTlv.data)).map
        (·.shift start)) data) := by
  have available : start + 6 + (reading.length - 2) = start + 4 + reading.length := by omega
  rw [Field.map_shift_shift]
  refine decides_bind (decides_dataSet order (Reading.dataSetFields_inside sized) available)
    (fun fits => ?_) fun whole => decides_of_yields ?_ (yields_pure _)
  · have demanded := fits size sized
    change reading.length - 2 = size
    omega
  · intro demanded found
    obtain rfl := Option.some.inj (sized.symm.trans found)
    change reading.length - 2 = size at whole
    omega

/-- `mgt_post_recv` on the data of a management TLV whose header and id are
converted already. -/
theorem decides_mgtPostRecv (sameReading : reading = readingAt .big wire start)
    (same : ∀ index, start + 6 ≤ index → data index = wire index)
    (idStored : load order (ManagementTlv.id.shift start) data = reading.word 4)
    (lengthStored : load order (Tlv.length.shift start) data = reading.length)
    (type : reading.type = .management) (more : 2 < reading.length) :
    Decides start (start + 4 + reading.length)
      (mgtPostRecv order start (reading.length - ManagementTlv.id.width) { tlv := start }) data
      reading.ManagementSized (reading.descriptor start)
      (overwriteLsb reading.scaledNs start data
        (convertAll order (reading.managementFields.map (·.shift start)) data)) := by
  have available : start + 6 + (reading.length - 2) = start + 4 + reading.length := by omega
  have idStop : (ManagementTlv.id.shift start).stop ≤ start + 4 + reading.length := by
    simp only [ManagementTlv.id, Field.shift, Field.stop]
    omega
  unfold mgtPostRecv
  refine yields_bind (yields_host order (Nat.le_add_right _ _) idStop) ?_
  rw [idStored, show ManagementId.ofCode (reading.word 4) = reading.managementId from rfl]
  unfold Reading.ManagementSized Reading.descriptor Reading.scaledNs Reading.managementFields
  simp only [type, more, if_true, true_and]
  cases id : reading.managementId <;> simp only [reduceCtorEq, if_false, if_true, overwriteLsb]
  case clockDescription =>
    refine decides_bind (decides_clockDescription order sameReading same available)
      (fun fits => ?_) fun fits => ?_
    · have round := Reading.evenUp_ge (reading.descriptionStop - 6)
      exact ⟨fits.1, fits.2.1, by omega⟩
    · have separate := reading.description_order
      refine decides_bind (decides_checkExtraLen order ?_ (by omega) (by omega)) (fun sized => sized.2.2)
        fun sized => decides_of_yields ⟨fits.1, fits.2.1, sized⟩ (yields_pure _)
      rw [← lengthStored]
      apply load_convertAll_apart
      simp only [List.mem_cons, List.not_mem_nil, or_false, forall_eq_or_imp, forall_eq, Field.Apart,
        Field.stop, Field.shift, Tlv.length]
      omega
  case userDescription =>
    refine require_bind (fun sized => ?_) fun room => ?_
    · change 1 ≤ reading.length - 2
      omega
    · refine octet_bind 6 sameReading same (Nat.le_refl _) (Nat.le_add_right _ _) (by omega) ?_
      refine decides_bind (decides_checkExtraLen order lengthStored (by simp [PTPText.size]) (by omega))
        (fun sized => sized) fun sized => decides_of_yields sized (yields_pure _)
  case timeStatusNp =>
    refine decides_bind (decides_dataSet order (by decide) available) (fun sized => ?_) fun whole => ?_
    · have size := sized TimeStatusNp.size rfl
      change reading.length - 2 = TimeStatusNp.size
      omega
    · change reading.length - 2 = 50 at whole
      have stop : start + 56 = start + 4 + reading.length := by omega
      rw [← stop]
      refine yields_bind (yields_scaledNsN2h order (by omega) ?_)
        (yields_bind (yields_ntoh order ?_ ?_)
          (decides_cast (decides_of_yields ?_ (yields_pure _)) (fun _ => rfl) fun _ => ?_))
      · change start + 6 + 26 + 12 ≤ start + 56
        omega
      · change start ≤ start + 6 + 38
        omega
      · change start + 6 + 38 + 4 ≤ start + 56
        omega
      · intro demanded found
        obtain rfl := Option.some.inj (show some 50 = some demanded from found)
        omega
      · exact scaledNs_among order (start + 6) 26 ((Reading.dataSetFields .timeStatusNp).take 5)
          TimeStatusNp.gmPresent data (by decide) (by decide)
  case portPropertiesNp => 
    refine require_bind (fun sized => ?_) fun room => ?_
    · change 13 ≤ reading.length - 2
      have round := Reading.evenUp_ge (13 + reading.octet 18)
      omega
    · change 13 ≤ reading.length - 2 at room
      refine yields_bind (yields_ntoh order ?_ ?_) ?_
      · change start ≤ start + 6 + 8
        omega
      · change start + 6 + 10 ≤ start + 4 + reading.length
        omega
      · have ended : (PortPropertiesNp.portNumber.shift (start + 6)).stop ≤ start + 18 := by
          change start + 6 + 10 ≤ start + 18
          omega
        refine octet_bind 18 sameReading (convert_beyond order same (by omega) ended)
          (Nat.le_refl _) (by omega) (by omega) ?_
        · refine decides_bind (decides_checkExtraLen order ?_ (by simp [PortPropertiesNp.size]) (by omega))
            (fun sized => sized) fun sized => decides_of_yields sized (yields_pure _)
          rw [load_convert_apart, lengthStored]
          refine Or.inr ?_
          change start + 2 + 2 ≤ start + 6 + 8
          omega
  case other => exact decides_of_yields (by simp [Reading.dataSetSize]) (yields_pure _)
  case defaultDataSet => exact decides_dataSetCase order .defaultDataSet rfl more
  case currentDataSet => exact decides_dataSetCase order .currentDataSet rfl more
  case parentDataSet => exact decides_dataSetCase order .parentDataSet rfl more
  case timePropertiesDataSet => exact decides_dataSetCase order .timePropertiesDataSet rfl more
  case portDataSet => exact decides_dataSetCase order .portDataSet rfl more
  case grandmasterSettingsNp => exact decides_dataSetCase order .grandmasterSettingsNp rfl more
  case portDataSetNp => exact decides_dataSetCase order .portDataSetNp rfl more
  case subscribeEventsNp => exact decides_dataSetCase order .subscribeEventsNp rfl more
  all_goals
    refine require_bind (fun sized => ?_) fun empty => ?_
    · have size := sized 0 rfl
      change reading.length - 2 = 0
      omega
    · change reading.length - 2 = 0 at empty
      omega

/-- The octets that select the follow-up information are read as on the wire. -/
theorem yields_isFollowUpInfo {limit : Nat} (sameReading : reading = readingAt .big wire start)
    (same : ∀ index, start + 4 ≤ index → data index = wire index) (room : start + 10 ≤ limit) :
    Yields start limit (isFollowUpInfo start) data (decide reading.IsFollowUpInfo) data := by
  unfold isFollowUpInfo
  refine octet_bind 4 sameReading same (by omega) (by omega) (by omega) ?_
  refine octet_bind 5 sameReading same (by omega) (by omega) (by omega) ?_
  refine octet_bind 6 sameReading same (by omega) (by omega) (by omega) ?_
  refine octet_bind 7 sameReading same (by omega) (by omega) (by omega) ?_
  refine octet_bind 8 sameReading same (by omega) (by omega) (by omega) ?_
  refine octet_bind 9 sameReading same (by omega) (by omega) (by omega) ?_
  exact yields_pure _

/-- `org_post_recv` on a TLV with at least an organization and a subtype. -/
theorem decides_orgPostRecv (sameReading : reading = readingAt .big wire start)
    (same : ∀ index, start + 4 ≤ index → data index = wire index)
    (lengthStored : load order (Tlv.length.shift start) data = reading.length)
    (type : reading.type = .organizationExtension) (room : 6 ≤ reading.length) :
    Decides start (start + 4 + reading.length) (orgPostRecv order start) data
      (reading.IsFollowUpInfo → reading.length = 28) ()
      (overwriteLsb reading.scaledNs start data
        (convertAll order (reading.valueFields.map (·.shift start)) data)) := by
  unfold orgPostRecv
  refine yields_bind (yields_isFollowUpInfo sameReading same (by omega)) ?_
  unfold Reading.scaledNs Reading.valueFields
  simp only [type]
  by_cases info : reading.IsFollowUpInfo
  · simp only [info, decide_true, if_true, forall_true_left]
    refine yields_bind (yields_host order (Nat.le_add_right _ _) ?_) ?_
    · change start + 4 ≤ start + 4 + reading.length
      omega
    rw [lengthStored]
    refine require_bind (fun size => ?_) fun size => ?_
    · change reading.length + 4 = 32
      omega
    change reading.length + 4 = 32 at size
    have stop : start + 32 = start + 4 + reading.length := by omega
    rw [← stop]
    have bounds : ∀ field ∈ Reading.followUpInfoFields,
        start ≤ (field.shift start).offset ∧ (field.shift start).stop ≤ start + 32 := by
      intro field member
      have bound := Reading.followUpInfoFields_bounds field member
      simp only [Field.shift_offset, Field.shift_stop]
      omega
    have bound := fun field member => bounds field member
    simp only [Reading.followUpInfoFields, List.forall_mem_cons] at bound
    refine yields_bind (yields_ntoh order bound.1.1 bound.1.2) ?_
    refine yields_bind (yields_ntoh order bound.2.1.1 bound.2.1.2) ?_
    refine yields_bind (yields_scaledNsN2h order (Nat.le_add_right _ _) ?_) ?_
    · change start + 16 + 12 ≤ start + 32
      omega
    exact decides_cast (decides_of_yields (by omega)
      (yields_ntoh order bound.2.2.2.2.1.1 bound.2.2.2.2.1.2)) (fun _ => rfl) fun _ =>
        scaledNs_among order start 16 (Reading.followUpInfoFields.take 2)
          FollowUpInfoTlv.scaledLastGmPhaseChange data (by decide) (by decide)
  · simp only [info, decide_false, Bool.false_eq_true, if_false, false_imp_iff, overwriteLsb]
    exact yields_pure _

/-- `nsm_resp_post_recv`. -/
theorem decides_nsmRespPostRecv (sameReading : reading = readingAt .big wire start)
    (same : ∀ index, start + 4 ≤ index → data index = wire index)
    (lengthStored : load order (Tlv.length.shift start) data = reading.length)
    (type : reading.type = .ptpmonResp) :
    Decides start (start + 4 + reading.length) (nsmRespPostRecv order { tlv := start }) data
      reading.WellSized (reading.descriptor start)
      (convertAll order (reading.valueFields.map (·.shift start)) data) := by
  unfold nsmRespPostRecv Reading.WellSized Reading.descriptor Reading.valueFields
  simp only [type]
  have lengthRead : ∀ storage, Yields start (start + 4 + reading.length)
      (host order (Tlv.length.shift start)) storage (load order (Tlv.length.shift start) storage)
      storage := fun storage => yields_host order (Nat.le_add_right _ _) (Nat.le_add_right _ _)
  refine yields_bind (lengthRead _) ?_
  rw [lengthStored]
  refine require_bind (fun sized => ?_) fun room => ?_
  · change 10 + 64 - 4 ≤ reading.length
    omega
  change 10 + 64 - 4 ≤ reading.length at room
  have low : ∀ field : Field, start ≤ (field.shift start).offset :=
    fun field => Nat.le_add_right _ _
  have high : ∀ field : Field, field.stop ≤ 10 →
      (field.shift start).stop ≤ start + 4 + reading.length := by
    intro field bound
    simp only [Field.shift_stop]
    omega
  refine yields_bind (yields_ntoh order (low _) (high _ (by decide))) ?_
  refine yields_bind (yields_ntoh order (low _) (high _ (by decide))) ?_
  refine yields_bind (yields_host order (low _) (high _ (by decide))) ?_
  have network : load order (NsmRespTlvHead.networkProtocol.shift start)
      (convert order (NsmRespTlvHead.addressLength.shift start)
        (convert order (NsmRespTlvHead.networkProtocol.shift start) data)) = reading.word 6 := by
    rw [load_convert_apart (Field.shift_apart _ (by decide)), load_convert,
      load_beyond same (Nat.add_le_add_left (by decide) _), sameReading]
    rfl
  rw [network]
  refine yields_bind (yields_host order (low _) (high _ (by decide))) ?_
  have address : load order (NsmRespTlvHead.addressLength.shift start)
      (convert order (NsmRespTlvHead.addressLength.shift start)
        (convert order (NsmRespTlvHead.networkProtocol.shift start) data)) = reading.word 8 := by
    rw [load_convert, load_convert_apart (Field.shift_apart _ (by decide)),
      load_beyond same (Nat.add_le_add_left (by decide) _), sameReading]
    rfl
  rw [address]
  refine require_bind (fun sized => sized.1) fun expected => ?_
  refine yields_bind (lengthRead _) ?_
  rw [load_convert_apart (Field.shift_apart _ (by decide)),
    load_convert_apart (Field.shift_apart _ (by decide)), lengthStored]
  refine require_bind (fun sized => ?_) fun size => ?_
  · change reading.length = 10 + 64 + reading.word 8 - 4
    omega
  change reading.length = 10 + 64 + reading.word 8 - 4 at size
  refine decides_cast (yields_bind (yields_ntohAll order _ _ ?_)
    (decides_of_yields ⟨expected, by omega⟩ (yields_pure _))) (fun _ => ?_) fun _ => ?_
  · intro field member
    have bound := Reading.nsmRespFootFields_inside field member
    change start ≤ start + 10 + reading.word 8 + field.offset ∧
      start + 10 + reading.word 8 + field.stop ≤ start + 4 + reading.length
    omega
  · rfl
  · rw [List.map_append, convertAll_append, Field.map_shift_shift, Nat.add_assoc]
    rfl

end Management

/-! ## The whole TLV -/

/-- Where the most significant part of a `ScaledNs` is read from does not matter
behind the converted header. -/
theorem overwriteLsb_source {reading : Reading} {start border : Nat} {data wire : Storage}
    (sized : reading.WellSized) (same : ∀ index, border ≤ index → data index = wire index)
    (early : border ≤ start + 10) (target : Storage) :
    overwriteLsb reading.scaledNs start data target =
      overwriteLsb reading.scaledNs start wire target := by
  cases found : reading.scaledNs with
  | none => rfl
  | some base =>
    have placed := Reading.scaledNs_placed sized found
    have ahead : border ≤ (ScaledNs.nanosecondsMsb.shift (start + base)).offset := by
      have late := placed.start
      simp only [Field.shift_offset]
      omega
    simp only [overwriteLsb, load_beyond same ahead]

/-- `tlv_post_recv` on a TLV whose type and length are converted already: it is
accepted exactly if it is well sized. Each type's sub-parser is specified by its
own lemma; what remains is the fields that this function converts itself. -/
theorem decides_tlvPostRecv (wire : Storage) (start : Nat) :
    Decides start (start + 4 + (readingAt .big wire start).length)
      (tlvPostRecv order { tlv := start })
      (convertAll order [Tlv.type.shift start, Tlv.length.shift start] wire)
      (readingAt .big wire start).WellSized ((readingAt .big wire start).descriptor start)
      (tlvIn order wire start) := by
  obtain ⟨reading, sameReading⟩ : ∃ reading, reading = readingAt .big wire start := ⟨_, rfl⟩
  obtain ⟨data, converted⟩ : ∃ data,
    data = convertAll order [Tlv.type.shift start, Tlv.length.shift start] wire := ⟨_, rfl⟩
  have separate : [Tlv.type.shift start, Tlv.length.shift start].Pairwise Field.Apart :=
    Reading.shift_separate start (by decide : [Tlv.type, Tlv.length].Pairwise Field.Apart)
  have typeStored : load order (Tlv.type.shift start) data = reading.word 0 := by
    rw [converted, load_convertAll separate (by simp), sameReading]
    rfl
  have lengthStored : load order (Tlv.length.shift start) data = reading.length := by
    rw [converted, load_convertAll separate (by simp), sameReading]
    rfl
  have same : ∀ index, start + 4 ≤ index → data index = wire index := by
    intro index beyond
    rw [converted]
    refine convertAll_outside ?_
    simp only [List.mem_cons, List.not_mem_nil, or_false, forall_eq_or_imp, forall_eq,
      Field.Covers, Field.stop, Field.shift, Tlv.type, Tlv.length]
    omega
  unfold tlvIn
  rw [← converted, ← sameReading]
  have whole : transcode order reading start wire = overwriteLsb reading.scaledNs start wire
      (convertAll order (reading.valueFields.map (·.shift start)) data) := by
    rw [converted]
    rfl
  have lengthRead : Yields start (start + 4 + reading.length)
      (host order (Tlv.length.shift start)) data reading.length data := by
    rw [← lengthStored]
    exact yields_host order (Nat.le_add_right _ _) (by rw [lengthStored]; exact Nat.le_add_right _ _)
  have unclipped : reading.type ≠ .pathTrace → ∀ storage, clip order reading start storage = storage :=
    fun other storage => if_neg fun overlong => other overlong.1
  unfold tlvPostRecv
  refine yields_bind (yields_host order (Nat.le_add_right _ _) ?_) ?_
  · change start + 2 ≤ start + 4 + reading.length
    omega
  rw [typeStored, show TlvType.ofCode (reading.word 0) = reading.type from rfl]
  cases type : reading.type <;> simp only
  case management =>
    refine yields_bind lengthRead (require_bind (fun sized => ?_) fun room => ?_)
    · simp only [Reading.WellSized, type] at sized
      exact sized.1
    change 2 ≤ reading.length at room
    have idStop : (ManagementTlv.id.shift start).stop ≤ start + 4 + reading.length := by
      change start + 6 ≤ start + 4 + reading.length
      omega
    refine yields_bind (yields_ntoh order (Nat.le_add_right _ _) idStop) ?_
    have idSame := convert_beyond order same (Nat.add_le_add_left (by decide : 4 ≤ 6) start)
      (Nat.le_refl (ManagementTlv.id.shift start).stop)
    refine decides_ite (fun more => ?_) fun less => ?_
    · change 2 < reading.length at more
      refine decides_cast (decides_congr (decides_mgtPostRecv order sameReading idSame ?_ ?_ type more)
        ?_) (fun _ => rfl) fun sized => ?_
      · rw [load_convert, load_beyond same (Nat.le_refl _), sameReading]
        rfl
      · rw [load_convert_apart (Field.shift_apart _ (by decide)), lengthStored]
      · simp only [Reading.WellSized, type, room, more, true_and, forall_true_left]
      · rw [overwriteLsb_source sized idSame (by omega),
          unclipped (by simp [type]), whole]
        simp only [Reading.valueFields, type, more, if_true]
        rfl
    · change ¬ 2 < reading.length at less
      refine decides_cast (decides_of_yields ?_ (yields_pure _)) (fun _ => ?_) fun _ => ?_
      · simp only [Reading.WellSized, type]
        exact ⟨room, fun more => absurd more less⟩
      · simp only [Reading.descriptor, type, less, if_false]
      · rw [unclipped (by simp [type]), whole]
        simp only [Reading.valueFields, Reading.scaledNs, type, less, false_and, if_false]
        rfl
  case managementErrorStatus =>
    refine yields_bind lengthRead (require_bind (fun sized => ?_) fun room => ?_)
    · simp only [Reading.WellSized, type] at sized
      exact sized
    change 8 ≤ reading.length at room
    refine yields_bind (yields_ntoh order (Nat.le_add_right _ _) ?_)
      (yields_bind (yields_ntoh order (Nat.le_add_right _ _) ?_)
        (decides_cast (decides_of_yields ?_ (yields_pure _)) (fun _ => ?_) fun _ => ?_))
    · change start + 6 ≤ start + 4 + reading.length
      omega
    · change start + 8 ≤ start + 4 + reading.length
      omega
    · simp only [Reading.WellSized, type, room]
    · simp only [Reading.descriptor, type]
    · rw [unclipped (by simp [type]), whole]
      simp only [Reading.valueFields, Reading.scaledNs, type]
      rfl
  case organizationExtension =>
    refine yields_bind lengthRead (require_bind (fun sized => ?_) fun room => ?_)
    · simp only [Reading.WellSized, type] at sized
      exact sized.1
    change 6 ≤ reading.length at room
    refine decides_bind (decides_orgPostRecv order sameReading same lengthStored type room)
      (fun sized => ?_) fun sized => ?_
    · simp only [Reading.WellSized, type] at sized
      exact sized.2
    have wellSized : reading.WellSized := by
      simp only [Reading.WellSized, type]
      exact ⟨room, sized⟩
    refine decides_cast (decides_of_yields wellSized (yields_pure _)) (fun _ => ?_) fun _ => ?_
    · simp only [Reading.descriptor, type]
    · rw [overwriteLsb_source wellSized same (by omega), unclipped (by simp [type]), whole]
  case pathTrace =>
    refine yields_bind lengthRead ?_
    have plain : transcode order reading start wire = data := by
      rw [whole]
      simp only [Reading.valueFields, Reading.scaledNs, type]
      rfl
    have wellSized : reading.WellSized := by simp only [Reading.WellSized, type]
    have described : reading.descriptor start = { tlv := start } := by
      simp only [Reading.descriptor, type]
    rw [plain, described]
    refine decides_ite (fun long => ?_) fun short => ?_
    · rw [clip, if_pos ⟨type, long⟩]
      exact yields_bind (yields_store order _ (Nat.le_add_right _ _) (Nat.le_add_right _ _))
        (decides_of_yields wellSized (yields_pure _))
    · rw [clip, if_neg fun overlong => short overlong.2]
      exact decides_of_yields wellSized (yields_pure _)
  case ptpmonResp =>
    refine decides_cast (decides_nsmRespPostRecv order sameReading same lengthStored type)
      (fun _ => rfl) fun sized => ?_
    rw [unclipped (by simp [type]), whole, Reading.scaledNs, type]
    rfl
  all_goals
    refine decides_cast (decides_of_yields ?_ (yields_pure _)) (fun _ => ?_) fun _ => ?_
    · simp only [Reading.WellSized, type]
    · simp only [Reading.descriptor, type]
    · rw [unclipped (by simp [type]), whole]
      simp only [Reading.valueFields, Reading.scaledNs, type]
      rfl

end Receiving

end LinuxPtp
