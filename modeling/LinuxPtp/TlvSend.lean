import LinuxPtp.MsgCodec
import LinuxPtp.TlvTranscode

/-!
# What sending a TLV does

`suffix_pre_send` converts the octets that the grammar's fields name, whatever
order its code visits them in, and overwrites the same part of a `ScaledNs` as
reception. It finds nested fields through the descriptor recorded on reception;
the descriptor is the grammar's, so both name the same offsets.
-/

namespace LinuxPtp

open Octets

section Sending

variable (order : ByteOrder) {reading : Reading} {start : Nat} {data : Storage}

theorem scaledNsH2n_eq (base : Nat) : scaledNsH2n order base data =
    store .big (ScaledNs.nanosecondsLsb.shift base)
      (load .big (ScaledNs.nanosecondsMsb.shift base) data)
      (convertAll order [ScaledNs.nanosecondsMsb.shift base,
        ScaledNs.fractionalNanoseconds.shift base] data) :=
  scaledNs_transcode order base data

/-- `mgt_pre_send` converts the management fields. -/
theorem mgtPreSend_eq (sameReading : reading = readingAt order data start)
    (type : reading.type = .management) (more : 2 < reading.length) :
    mgtPreSend order start (reading.descriptor start) data =
      overwriteLsb reading.scaledNs start data
        (convertAll order (reading.managementFields.map (·.shift start)) data) := by
  have id : ManagementId.ofCode (load order (ManagementTlv.id.shift start) data) =
      reading.managementId := by
    rw [sameReading]
    rfl
  unfold mgtPreSend Reading.descriptor Reading.scaledNs Reading.managementFields
  rw [id]
  simp only [type, more, if_true, true_and]
  cases reading.managementId <;> simp only [reduceCtorEq, if_false, if_true, overwriteLsb]
  case timeStatusNp =>
    rw [scaledNsH2n_eq]
    exact scaledNs_among order (start + 6) 26 ((Reading.dataSetFields .timeStatusNp).take 5)
      TimeStatusNp.gmPresent data (by decide) (by decide)
  all_goals rfl

/-- `org_pre_send` converts the follow-up information. -/
theorem orgPreSend_eq (sameReading : reading = readingAt order data start)
    (type : reading.type = .organizationExtension) :
    orgPreSend order start data = overwriteLsb reading.scaledNs start data
      (convertAll order (reading.valueFields.map (·.shift start)) data) := by
  have info : followUpInfoAt start data = decide reading.IsFollowUpInfo := by
    rw [sameReading]
    rfl
  unfold orgPreSend Reading.scaledNs Reading.valueFields
  simp only [info, type]
  by_cases same : reading.IsFollowUpInfo
  · simp only [same, decide_true, if_true]
    rw [scaledNsH2n_eq]
    exact scaledNs_among order start 16 (Reading.followUpInfoFields.take 2)
      FollowUpInfoTlv.scaledLastGmPhaseChange data (by decide) (by decide)
  · simp only [same, decide_false, Bool.false_eq_true, if_false]
    rfl

/-- `nsm_resp_pre_send` converts the address and the foot. -/
theorem nsmRespPreSend_eq (type : reading.type = .ptpmonResp) :
    nsmRespPreSend order (reading.descriptor start) data =
      convertAll order (reading.valueFields.map (·.shift start)) data := by
  simp only [Reading.descriptor, Reading.valueFields, type, nsmRespPreSend]
  rw [List.map_append, convertAll_append, Field.map_shift_shift, Nat.add_assoc]
  rfl

/-- `tlv_pre_send` converts every field but type and length. -/
theorem tlvPreSend_eq (sameReading : reading = readingAt order data start)
    (sized : reading.WellSized) :
    tlvPreSend order (reading.descriptor start) data = overwriteLsb reading.scaledNs start data
      (convertAll order (reading.valueFields.map (·.shift start)) data) := by
  have typeRead : TlvType.ofCode (load order (Tlv.type.shift start) data) = reading.type := by
    rw [sameReading]
    rfl
  have lengthRead : load order (Tlv.length.shift start) data = reading.length := by
    rw [sameReading]
    rfl
  unfold tlvPreSend
  simp only [Reading.descriptor_tlv, typeRead, lengthRead]
  cases type : reading.type <;> simp only
  case management =>
    by_cases more : 2 < reading.length
    · have separate := Reading.shift_separate start (@Reading.valueFields_separate reading)
      have listed : reading.valueFields = ManagementTlv.id :: reading.managementFields := by
        simp only [Reading.valueFields, type, more, if_true]
      have reordered : convertAll order (reading.valueFields.map (·.shift start)) data =
          convertAll order ([ManagementTlv.id].map (·.shift start))
            (convertAll order (reading.managementFields.map (·.shift start)) data) := by
        rw [← convertAll_append, ← List.map_append]
        refine convertAll_perm ?_ separate data
        rw [listed]
        exact (List.perm_append_singleton _ _).symm.map _
      have wide : ManagementTlv.id.width < reading.length := more
      rw [if_pos wide, mgtPreSend_eq order sameReading type more, reordered]
      refine convertAll_overwriteLsb order [ManagementTlv.id] data fun base found field member => ?_
      obtain rfl := List.mem_singleton.mp member
      refine (Reading.scaledNs_placed sized found).apart _ ?_
      simp only [Reading.fields, listed, List.mem_cons, true_or, or_true]
    · have narrow : ¬ ManagementTlv.id.width < reading.length := more
      simp only [if_neg narrow, Reading.valueFields, Reading.scaledNs, type, more, false_and, if_false]
      rfl
  case managementErrorStatus =>
    simp only [Reading.valueFields, Reading.scaledNs, type]
    rfl
  case organizationExtension => exact orgPreSend_eq order sameReading type
  case ptpmonResp =>
    rw [nsmRespPreSend_eq order type]
    simp only [Reading.scaledNs, type, overwriteLsb]
  all_goals
    simp only [Reading.valueFields, Reading.scaledNs, type]
    rfl

/-- One turn of the sending loop transcodes the TLV that the descriptor names. -/
theorem tlvSendStep_eq (sized : (readingAt order data start).WellSized) :
    tlvSendStep order data ((readingAt order data start).descriptor start) =
      tlvOut order data start := by
  obtain ⟨reading, sameReading⟩ : ∃ reading, reading = readingAt order data start := ⟨_, rfl⟩
  unfold tlvOut tlvSendStep transcode
  rw [← sameReading] at sized ⊢
  have separate := Reading.shift_separate start (@Reading.fields_separate reading)
  have reordered : convertAll order (reading.fields.map (·.shift start)) data =
      convertAll order ([Tlv.type, Tlv.length].map (·.shift start))
        (convertAll order (reading.valueFields.map (·.shift start)) data) := by
    rw [← convertAll_append, ← List.map_append]
    refine convertAll_perm ?_ separate data
    exact List.Perm.map _ (@List.perm_append_comm _ [Tlv.type, Tlv.length] _)
  simp only [Reading.descriptor_tlv]
  rw [tlvPreSend_eq order sameReading sized, reordered]
  refine convertAll_overwriteLsb order [Tlv.type, Tlv.length] data fun base found field member => ?_
  refine (Reading.scaledNs_placed sized found).apart _ ?_
  simp only [Reading.fields, List.mem_cons] at member ⊢
  rcases member with rfl | rfl | absent
  · exact Or.inl rfl
  · exact Or.inr (Or.inl rfl)
  · simp at absent

/-- What sending uses of a descriptor: the pointers that its conversions follow. -/
structure Pointed (reading : Reading) (start : Nat) (extra : TlvExtra) : Prop where
  tlv : extra.tlv = start
  description : reading.type = .management → 2 < reading.length →
    reading.managementId = .clockDescription →
    extra.cd.clockType = (reading.clockDescription start).clockType ∧
    extra.cd.physicalAddress = (reading.clockDescription start).physicalAddress ∧
    extra.cd.protocolAddress = (reading.clockDescription start).protocolAddress
  foot : reading.type = .ptpmonResp → extra.foot = (reading.descriptor start).foot

theorem pointed_descriptor (reading : Reading) (start : Nat) :
    Pointed reading start (reading.descriptor start) := by
  refine ⟨reading.descriptor_tlv start, fun type more id => ?_, fun _ => rfl⟩
  simp only [Reading.descriptor, type, more, id, if_true, and_self]

/-- A descriptor that points where the grammar does is as good as the grammar's. -/
theorem tlvSendStep_pointed {extra : TlvExtra}
    (pointed : Pointed (readingAt order data start) start extra) :
    tlvSendStep order data extra =
      tlvSendStep order data ((readingAt order data start).descriptor start) := by
  have same : tlvPreSend order extra data =
      tlvPreSend order ((readingAt order data start).descriptor start) data := by
    have typeRead : TlvType.ofCode (load order (Tlv.type.shift start) data) =
        (readingAt order data start).type := rfl
    have lengthRead : load order (Tlv.length.shift start) data =
        (readingAt order data start).length := rfl
    unfold tlvPreSend
    simp only [pointed.tlv, Reading.descriptor_tlv, typeRead, lengthRead]
    cases type : (readingAt order data start).type <;> simp only
    case management =>
      by_cases more : ManagementTlv.id.width < (readingAt order data start).length
      · have idRead : ManagementId.ofCode (load order (ManagementTlv.id.shift start) data) =
            (readingAt order data start).managementId := rfl
        simp only [if_pos more, mgtPreSend, idRead]
        cases id : (readingAt order data start).managementId <;> simp only
        case clockDescription =>
          obtain ⟨clockType, physical, protocol⟩ := pointed.description type more id
          obtain ⟨clockType', physical', protocol'⟩ :=
            (pointed_descriptor (readingAt order data start) start).description type more id
          simp only [clockType, physical, protocol, clockType', physical', protocol']
      · simp only [if_neg more]
    case ptpmonResp =>
      simp only [nsmRespPreSend, pointed.foot type, pointed.tlv, Reading.descriptor_tlv]
  simp only [tlvSendStep, same, pointed.tlv, Reading.descriptor_tlv]

end Sending

end LinuxPtp
