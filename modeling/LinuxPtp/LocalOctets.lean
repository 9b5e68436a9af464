import LinuxPtp.LocalCopy

/-!
# The octets that are handled after forwarding

`clock_manage` goes on with the buffer that forwarding leaves, so the octets of
a message with a single TLV are stated here at once, for every course that
forwarding takes. A message that stays is as the parser left it. One that enters
forwarding without leaving by a port lacks a hop. One that left was converted
for the network and parsed again, and only what that second parse reaches is
the host's; if the parse gets as far as the TLV, the TLV is listed once more and
the message is not handled at all.

A message without a TLV can come back with one: its second parse goes by the
length that the header states, and reads the zeros behind the received octets.
What it finds there has no identifier.
-/

namespace LinuxPtp

open Octets Recv

section LocalOctets

variable (order : ByteOrder)

/-- The octets on which `clock_manage` goes on, of a message whose only TLV
follows the body: the parsed ones, as far as they were restored. -/
def standing (c : ForwardClock) (p : PortRef) (data : Storage) : Storage := fun index =>
  if Leaves c p data then
    if index < reparsed (load order PtpHeader.messageLength data) ∨ index = 45 then data index
    else relayedBuffer order [48] data index
  else if index = 45 ∧ entersForwarding c p data then data 45 - 1
  else data index

/-- A message that left by a port and whose TLV its second parse finds again. -/
def ListedTwice (c : ForwardClock) (p : PortRef) (data : Storage) : Prop :=
  Leaves c p data ∧ FindsTlv order data [48] (load order PtpHeader.messageLength data)

instance (c : ForwardClock) (p : PortRef) (data : Storage) :
    Decidable (ListedTwice order c p data) :=
  inferInstanceAs (Decidable (_ ∧ tlvStop _ _ _ ≤ _))

variable {order} {wire : Storage} {cnt : Nat} {starts : List Nat} {now : Int}
  {c : ForwardClock} {p : PortRef}

/-! ## Zeros -/

theorem load_zeros (reader : ByteOrder) {field : Field} {data : Storage}
    (zeros : ∀ index, field.Covers index → data index = 0) : load reader field data = 0 := by
  have value_zeros : ∀ width, value width (fun _ => 0) = 0 := by
    intro width
    induction width with
    | zero => rfl
    | succ width inductionHypothesis =>
      rw [value]
      simpa using inductionHypothesis
  rw [@load_congr reader field data (fun _ => 0) zeros]
  cases reader <;> exact value_zeros _

/-- Zeros stay zeros when they are received as part of a TLV, whatever its type and length say. -/
theorem tlvIn_zeros {data : Storage} {start : Nat}
    (sized : (readingAt .big data start).WellSized)
    (zeros : ∀ index, start + 4 ≤ index → data index = 0) {index : Nat} (late : start + 4 ≤ index) :
    tlvIn order data start index = 0 := by
  have kept : transcode order (readingAt .big data start) start data index = 0 := by
    by_cases covered : ∃ field ∈ (readingAt .big data start).fields,
        (field.shift start).Covers index
    · obtain ⟨field, listed, inside⟩ := covered
      have low := inside.1
      have high := inside.2
      simp only [Field.shift_offset, Field.shift_stop] at low high
      have value : 4 ≤ field.offset := by
        rcases List.mem_cons.mp listed with rfl | listed
        · change index < start + 2 at high
          omega
        · rcases List.mem_cons.mp listed with rfl | listed
          · change index < start + 4 at high
            omega
          · exact Reading.valueFields_start field listed
      have nothing : ∀ inner, (field.shift start).Covers inner → data inner = 0 := by
        intro inner within
        refine zeros inner ?_
        have first := within.1
        simp only [Field.shift_offset] at first
        omega
      rw [transcode_covered order sized listed inside]
      have same := (convert_same_iff order (field.shift start) data).mpr
        ((load_zeros .big nothing).trans (load_zeros order nothing).symm) index inside
      rw [same, zeros index late]
    · by_cases lost : ∃ base, (readingAt .big data start).scaledNs = some base ∧
          (ScaledNs.nanosecondsLsb.shift (start + base)).Covers index
      · obtain ⟨base, found, inside⟩ := lost
        have placed := Reading.scaledNs_placed sized found
        have nothing : load .big (ScaledNs.nanosecondsMsb.shift (start + base)) data = 0 := by
          refine load_zeros .big fun inner within => zeros inner ?_
          have first := within.1
          have base10 := placed.start
          simp only [Field.shift_offset] at first
          omega
        simp only [transcode, overwriteLsb, found, nothing, store, if_pos inside, Octets.octet]
        simp
      · rw [transcode_uncovered order (fun field listed inside => covered ⟨field, listed, inside⟩)
          fun base found inside => lost ⟨base, found, inside⟩]
        exact zeros index late
  unfold tlvIn clip
  split
  · refine (store_outside fun inside => ?_).trans kept
    have high := inside.2
    change index < start + 4 at high
    omega
  · exact kept

/-- Zeros are a suffix: TLVs of type and length zero. -/
theorem suffix_zeros {data : Storage} (stop : Nat) {start : Nat}
    (zeros : ∀ index, start ≤ index → data index = 0) :
    ∃ found, Suffix .big data stop start found := by
  by_cases short : stop < start + 4
  · exact ⟨[], .done start short⟩
  have word : ∀ position, (readingAt .big data start).word position = 0 := by
    intro position
    exact load_zeros .big fun index covered => zeros index (by have := covered.1; simp at this; omega)
  have length : (readingAt .big data start).length = 0 := word 2
  have other : (readingAt .big data start).type = .other := by
    rw [Reading.type, word 0]
    rfl
  have ends : tlvStop .big data start = start + 4 := by
    rw [tlvStop, length]
  have admitted : Admitted .big data stop start := by
    refine ⟨by rw [length], by omega, ?_⟩
    rw [Reading.WellSized, other]
    trivial
  obtain ⟨found, rest⟩ := @suffix_zeros data stop (start + 4)
    fun index late => zeros index (by omega)
  exact ⟨start :: found, .tlv start found admitted (ends.symm ▸ rest)⟩
termination_by stop - start

/-! ## After forwarding -/

/-- A message that is handled once goes on with the standing octets.

Proof: by the course that forwarding takes. A message that stays or only loses its hop is as parsed.
One that left was not found again, so that its list is unchanged and its octets are known. -/
theorem local_standing (accepted : Accepted wire cnt .management [48])
    (once : ¬ ListedTwice order c p (parsedBuffer order [48] wire)) :
    let passed := (clockForwardMgmtMsg order now c p
      (decoded order now .management [48] (Message.fresh wire))).1
    passed.data = standing order c p (parsedBuffer order [48] wire) ∧ passed.tlvCount = 1 := by
  have suffix := accepted_suffix accepted
  intro passed
  change (clockForwardMgmtMsg order now c p _).1.data = _ ∧
    (clockForwardMgmtMsg order now c p _).1.tlvCount = 1
  rw [forward_spec _ (decoded_flags accepted)]
  have host : (decoded order now .management [48] (Message.fresh wire)).data =
      parsedBuffer order [48] wire := rfl
  rw [host]
  by_cases leaves : Leaves c p (parsedBuffer order [48] wire)
  · have quiet : ¬ FindsTlv order (parsedBuffer order [48] wire) [48]
        (load order PtpHeader.messageLength (parsedBuffer order [48] wire)) :=
      fun found => once ⟨leaves, found⟩
    have image := @decoded_sendable order now cnt wire [48] accepted
    obtain ⟨tlvs, count⟩ := preSend_tlvs order now
      (withHops (· - 1) (decoded order now .management [48] (Message.fresh wire)))
    rw [if_pos leaves]
    generalize preSend order now (withHops (· - 1)
      (decoded order now .management [48] (Message.fresh wire))) = sent at image tlvs count
    obtain ⟨version, known⟩ := @sent_readable order [48] wire cnt accepted
    rw [← image] at version known
    have returned := @secondParse_returned order now sent _ version known (by
      rw [image]
      exact fun admitted => quiet ((admitted_relayed suffix _).mp admitted))
    refine ⟨?_, returned.count.trans count⟩
    funext index
    rw [standing, if_pos leaves]
    exact restored_octets suffix image quiet returned (Or.inr (List.cons_ne_nil _ _))
  · rw [if_neg leaves]
    have stays : ∀ index, standing order c p (parsedBuffer order [48] wire) index =
        if index = 45 ∧ entersForwarding c p (parsedBuffer order [48] wire) then
          parsedBuffer order [48] wire 45 - 1
        else parsedBuffer order [48] wire index := fun index => if_neg leaves
    by_cases enters : entersForwarding c p (parsedBuffer order [48] wire)
    · rw [if_pos enters]
      refine ⟨funext fun index => ?_, rfl⟩
      rw [stays]
      by_cases hop : index = 45
      · subst hop
        rw [if_pos ⟨rfl, enters⟩]
        exact @setOctet_same 45 (parsedBuffer order [48] wire 45 - 1) (parsedBuffer order [48] wire)
      · rw [if_neg fun both => hop both.1]
        exact setOctet_other hop
    · rw [if_neg enters]
      refine ⟨funext fun index => ?_, rfl⟩
      rw [stays, if_neg fun both => enters both.2]
      rfl

/-- A message without a TLV that finds one in its second parse has no identifier there. -/
theorem found_nothing (accepted : Accepted wire cnt .management [])
    (zeros : ∀ index, cnt ≤ index → wire index = 0) {length : Nat} {sent : Message}
    (image : sent.data = relayedBuffer order [] (parsedBuffer order [] wire))
    (empty : sent.tlvCount = 0)
    (found : FindsTlv order (parsedBuffer order [] wire) [] length)
    (sole : (secondParse order now length sent).tlvCount = 1) :
    load order ⟨52, 2⟩ (secondParse order now length sent).data = 0 := by
  have suffix := accepted_suffix accepted
  have laid := suffix_laid suffix
  have hostLaid : Laid order (parsedBuffer order [] wire) 48 [] := parsedLaid laid
  have short : cnt < 52 := by
    cases suffix with
    | done _ short => exact short
  have same : ∀ index, 48 ≤ index → sent.data index = wire index := by
    intro index late
    rw [image, relayed_apart hostLaid late (by simp), parsed_apart laid late (by simp)]
  have behind : ∀ index, 52 ≤ index → sent.data index = 0 := by
    intro index late
    rw [same index (by omega)]
    exact zeros index (by omega)
  obtain ⟨version, known⟩ := @sent_readable order [] wire cnt accepted
  rw [← image] at version known
  have admitted : Admitted .big sent.data length 48 := by
    rw [image]
    exact (admitted_relayed suffix length).mpr found
  have fits := admitted.fits
  obtain ⟨later, rest⟩ := @suffix_zeros sent.data length (tlvStop .big sent.data 48)
    fun index late => behind index (by simp only [tlvStop] at late; omega)
  have again : Accepted sent.data length .management (48 :: later) := by
    refine ⟨version, known, ?_, .tlv 48 later admitted rest⟩
    simp only [tlvStop] at fits
    change 48 ≤ length
    omega
  obtain ⟨last, accesses, _, run⟩ := msgPostRecv_accepted order now sent again
  rw [secondParse, run] at sole ⊢
  have only : later = [] := by
    change sent.tlvCount + (later.length + 1) = 1 at sole
    exact List.length_eq_zero_iff.mp (by omega)
  subst only
  refine load_zeros order fun index covered => ?_
  change tlvIn order (headed order .management sent.data) 48 index = 0
  have sized := ((admitted_headed order).mpr admitted).sized
  refine tlvIn_zeros sized (fun inner late => ?_) covered.1
  rw [headed_beyond order .management _ (show 48 ≤ inner by omega)]
  exact behind inner late

theorem sole_start (suffix : Suffix .big wire cnt 48 starts) (one : starts.length = 1) :
    starts = [48] := by
  cases suffix with
  | done => cases one
  | tlv _ rest _ _ =>
    obtain rfl := List.length_eq_zero_iff.mp (Nat.succ.inj one)
    rfl

/-- A message with a single TLV after forwarding and an identifier there had that TLV from the
beginning, and was not found again.

Proof: forwarding removes no TLV, and finding one again makes two of one. What is found behind a
message without a TLV has no identifier. -/
theorem local_sole (accepted : Accepted wire cnt .management starts)
    (zeros : ∀ index, cnt ≤ index → wire index = 0)
    (sole : (clockForwardMgmtMsg order now c p
      (decoded order now .management starts (Message.fresh wire))).1.tlvCount = 1)
    (named : load order ⟨52, 2⟩ (clockForwardMgmtMsg order now c p
      (decoded order now .management starts (Message.fresh wire))).1.data ≠ 0) :
    starts = [48] ∧ ¬ ListedTwice order c p (parsedBuffer order starts wire) := by
  have suffix := accepted_suffix accepted
  have first := @sole_start wire cnt starts suffix
  have parsed : (decoded order now .management starts (Message.fresh wire)).tlvCount =
      starts.length := Nat.zero_add _
  have host : (decoded order now .management starts (Message.fresh wire)).data =
      parsedBuffer order starts wire := rfl
  rw [forward_spec _ (decoded_flags accepted), host] at sole named
  by_cases leaves : Leaves c p (parsedBuffer order starts wire)
  · rw [if_pos leaves] at sole named
    have image := @decoded_sendable order now cnt wire starts accepted
    obtain ⟨_, count⟩ := preSend_tlvs order now
      (withHops (· - 1) (decoded order now .management starts (Message.fresh wire)))
    generalize preSend order now (withHops (· - 1)
      (decoded order now .management starts (Message.fresh wire))) = sent at image count sole named
    change (secondParse order now _ sent).tlvCount = 1 at sole
    have hops : load order ⟨52, 2⟩ (secondParse order now
        (load order PtpHeader.messageLength (parsedBuffer order starts wire)) sent).data ≠ 0 := by
      rw [← @load_setOctet order ⟨52, 2⟩ 45]
      · exact named
      · decide
    obtain ⟨version, known⟩ := @sent_readable order starts wire cnt accepted
    rw [← image] at version known
    have before : sent.tlvCount = starts.length := count.trans parsed
    by_cases found : FindsTlv order (parsedBuffer order starts wire) starts
        (load order PtpHeader.messageLength (parsedBuffer order starts wire))
    · have more := @secondParse_admitted order now sent _ version known
        (by rw [image]; exact (admitted_relayed suffix _).mpr found)
      have none : starts = [] := List.length_eq_zero_iff.mp (by omega)
      subst none
      exact absurd (found_nothing accepted zeros image before found sole) hops
    · have returned := @secondParse_returned order now sent _ version known
        (by rw [image]; exact fun admitted => found ((admitted_relayed suffix _).mp admitted))
      have one : starts = [48] := first (before.symm.trans (returned.count.symm.trans sole))
      subst one
      exact ⟨rfl, fun twice => found twice.2⟩
  · rw [if_neg leaves] at sole
    refine ⟨first (parsed.symm.trans ?_), fun twice => ?_⟩
    · split at sole <;> exact sole
    · have one : starts = [48] := first (parsed.symm.trans (by split at sole <;> exact sole))
      exact leaves (one ▸ twice.1)

/-! ## Against the wire -/

theorem convertAll_big (fields : List Field) (data : Storage) : convertAll .big fields data = data := by
  induction fields generalizing data with
  | nil => rfl
  | cons field rest inductionHypothesis =>
    rw [convertAll_cons, convert_big, inductionHypothesis]

/-- Where the message stays, or the host has the order of the network, header and body are the
host's; only the hop may be missing. -/
theorem standing_head (laid : Laid .big wire 48 [48])
    (own : order = .big ∨ ¬ Leaves c p (parsedBuffer order [48] wire)) {index : Nat}
    (early : index < 48) (other : index ≠ 45) :
    standing order c p (parsedBuffer order [48] wire) index =
      parsedBuffer order [48] wire index := by
  rw [standing]
  split
  next leaves =>
    obtain rfl := own.resolve_right fun stays => stays leaves
    split
    · rfl
    · rw [relayed_head laid early, if_neg other, parsed_head laid early, headed, convertAll_big]
  next => exact if_neg fun both => other both.1

/-- The same of a management TLV: it was transcoded once. -/
theorem standing_tlv (laid : Laid .big wire 48 [48])
    (management : (readingAt .big wire 48).type = .management)
    (own : order = .big ∨ ¬ Leaves c p (parsedBuffer order [48] wire)) {index : Nat}
    (low : 48 ≤ index) (high : index < tlvStop .big wire 48) :
    standing order c p (parsedBuffer order [48] wire) index =
      transcode order (readingAt .big wire 48) 48 wire index := by
  have member : 48 ∈ [48] := List.mem_singleton_self 48
  have complete : ¬ (readingAt .big wire 48).Overlong := by
    rintro ⟨path, _⟩
    rw [management] at path
    cases path
  have received : parsedBuffer order [48] wire index =
      transcode order (readingAt .big wire 48) 48 wire index := by
    rw [parsed_tlv laid member low high, tlvIn, clip, if_neg complete]
  rw [standing]
  split
  next leaves =>
    obtain rfl := own.resolve_right fun stays => stays leaves
    split
    · exact received
    · -- in the order of the network a second transcoding changes nothing
      rw [relayed_wire laid member complete low high, transcode, convertAll_big]
      cases (readingAt .big wire 48).scaledNs <;> rfl
  next => exact (if_neg fun both => by omega).trans received

/-- What left by a port has the identifier of its TLV in the order of the network again. -/
theorem standing_relayed (laid : Laid .big wire 48 [48])
    (complete : ¬ (readingAt .big wire 48).Overlong)
    (plain : (readingAt .big wire 48).scaledNs = none)
    (leaves : Leaves c p (parsedBuffer order [48] wire)) {index : Nat}
    (low : 52 ≤ index) (high : index < tlvStop .big wire 48) :
    standing order c p (parsedBuffer order [48] wire) index = wire index := by
  have reach := reparsed_values (load order PtpHeader.messageLength (parsedBuffer order [48] wire))
  rw [standing, if_pos leaves, if_neg (by omega),
    relayed_wire laid (List.mem_singleton_self 48) complete (by omega) high, plain]
  rfl

end LocalOctets

end LinuxPtp
