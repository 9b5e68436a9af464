import LinuxPtp.Reparse

/-!
# The local copy of a forwarded message

What `clock_manage` goes on to handle after forwarding, against what was parsed
on reception. The hop count returns only if some port was eligible, the octets
return only as far as the second parse gets, and a TLV it finds is listed twice.

What comes back is described for the octets that were received and for those behind them, as
`clock_manage` reads both. A message that no port sends on takes another way than one that some
port does, and for each of the two it is said which octets return.
-/

namespace LinuxPtp

open Octets Recv

section LocalCopy

variable (order : ByteOrder)

/-- The octets of header, body and the TLVs at the listed offsets. -/
def Held (data : Storage) (starts : List Nat) (index : Nat) : Prop :=
  index < 48 ∨ ∃ start ∈ starts, start ≤ index ∧ index < tlvStop order data start

/-- Header, body and TLVs, their list and their count are as before. -/
structure SameCopy (before after : Message) : Prop where
  octets : ∀ index, Held order before.data (before.tlvList.map (·.tlv)) index →
    after.data index = before.data index
  tlvs : after.tlvList = before.tlvList
  count : after.tlvCount = before.tlvCount

/-- Every multi-octet field of header, body and the TLVs at the listed offsets. -/
def messageFields (data : Storage) (starts : List Nat) : List Field :=
  (hdrFields ++ bodyFields .management) ++ starts.flatMap fun start =>
    (readingAt order data start).fields.map (·.shift start)

/-- Parsing the message again finds a TLV within the supplied length: its first
one, or, where it has none, octets behind it that happen to form one. -/
def FindsTlv (data : Storage) (starts : List Nat) (length : Nat) : Prop :=
  match starts with
  | [] => Admitted .big data length 48
  | first :: _ => tlvStop order data first ≤ length

/-- The second parse leaves the message as it was: it finds no TLV, and every
field it does not reach reads the same in both byte orders. -/
structure Undisturbed (msg : Message) : Prop where
  quiet : ¬ FindsTlv order msg.data (msg.tlvList.map (·.tlv)) (messageLength order msg.data)
  alike : ∀ field ∈ messageFields order msg.data (msg.tlvList.map (·.tlv)),
    reparsed (messageLength order msg.data) ≤ field.offset →
    load .big field msg.data = load order field msg.data

/-! ## Where the image differs from the host's buffer -/

variable {order} {starts : List Nat} {host : Storage}

/-- Before the suffix the image is the converted host buffer. -/
theorem relayed_host_head (laid : Laid order host 48 starts) {index : Nat} (early : index < 48)
    (other : index ≠ 45) :
    relayedBuffer order starts host index = headed order .management host index := by
  rw [relayedBuffer, confined_before (confined_tlvOut order) (sourceLaid laid) early]
  exact headed_setOctet _ _ other

theorem relayed_hops (laid : Laid order host 48 starts) :
    relayedBuffer order starts host 45 = host 45 - 1 := by
  rw [relayedBuffer, confined_before (confined_tlvOut order) (sourceLaid laid) (by decide),
    headed_uncovered (by decide)]
  exact setOctet_same

/-- The second parse returns the octets before the suffix. -/
theorem headed_relayed (laid : Laid order host 48 starts) {index : Nat} (early : index < 48) :
    headed order .management (relayedBuffer order starts host) index =
      if index = 45 then host 45 - 1 else host index := by
  by_cases here : index = 45
  · subst here
    rw [headed_uncovered (by decide), if_pos rfl, relayed_hops laid]
  · rw [if_neg here]
    have twice : headed order .management (headed order .management host) index = host index := by
      rw [headed, headed, convertAll_convertAll (headed_separate .management)]
    rw [← twice]
    refine convertAll_congr (fun field member inner covered => relayed_host_head laid ?_ ?_)
      (headed_separate .management) (relayed_host_head laid early here)
    · exact Nat.lt_of_lt_of_le covered.2 (headed_bounds .management field member)
    · rintro rfl
      exact management_uncovered field member 45 (by decide) covered

/-- What the host's `ScaledNs` hold after reception: the received most significant
part, also in the octets of the least significant one. -/
def LsbOverwritten (order : ByteOrder) (host : Storage) (start : Nat) : Prop :=
  ∀ base, (readingAt order host start).scaledNs = some base →
    load .big (ScaledNs.nanosecondsLsb.shift (start + base)) host =
      load order (ScaledNs.nanosecondsMsb.shift (start + base)) host

theorem reparsed_values (length : Nat) : reparsed length = 0 ∨ reparsed length = 34 ∨
    reparsed length = 48 ∨ reparsed length = 52 := by
  unfold reparsed
  split
  · simp
  · split
    · simp
    · split <;> simp

/-- No field is split by the points at which the second parse ends. -/
theorem reparsed_field (length : Nat) : ∀ field ∈ hdrFields ++ bodyFields .management,
    reparsed length < field.stop → reparsed length ≤ field.offset := by
  rcases reparsed_values length with same | same | same | same <;> rw [same] <;> decide

/-- From the point on that the second parse reaches, the image agrees with the
host's buffer exactly if every later field reads the same in both byte orders.

Proof: an octet before the suffix or in a TLV is in a field, in the overwritten
part of a `ScaledNs`, or in neither. A field's octets change exactly if the field
reads differently; the overwritten part changes only with the most significant
part, which is itself such a field. -/
theorem relayed_alike (laid : Laid order host 48 starts)
    (placed : ∀ start ∈ starts, start = 48 ∨ 52 ≤ start)
    (overwritten : ∀ start ∈ starts, LsbOverwritten order host start) (length : Nat) :
    (∀ index, Held order host starts index → reparsed length ≤ index → index ≠ 45 →
      relayedBuffer order starts host index = host index) ↔
    ∀ field ∈ messageFields order host starts, reparsed length ≤ field.offset →
      load .big field host = load order field host := by
  have reach := reparsed_values length
  have inHead : ∀ field ∈ hdrFields ++ bodyFields .management, ∀ index, field.Covers index →
      index < 48 ∧ index ≠ 45 := by
    intro field member index covered
    refine ⟨Nat.lt_of_lt_of_le covered.2 (headed_bounds .management field member), ?_⟩
    rintro rfl
    exact management_uncovered field member 45 (by decide) covered
  have headOctet : ∀ field ∈ hdrFields ++ bodyFields .management, ∀ index, field.Covers index →
      relayedBuffer order starts host index = convert order field host index := by
    intro field member index covered
    obtain ⟨early, other⟩ := inHead field member index covered
    rw [relayed_host_head laid early other]
    exact convertAll_inside (headed_separate .management) member covered
  have inTlv : ∀ start ∈ starts, ∀ field ∈ (readingAt order host start).fields, ∀ index,
      (field.shift start).Covers index → start ≤ index ∧ index < tlvStop order host start := by
    intro start member field listed index covered
    have bound := Reading.fields_inside (laid_member laid start member).2 field listed
    have low := covered.1
    have high := covered.2
    simp only [Field.shift_offset, Field.shift_stop, tlvStop] at *
    omega
  have tlvOctet : ∀ start ∈ starts, ∀ field ∈ (readingAt order host start).fields, ∀ index,
      (field.shift start).Covers index →
      relayedBuffer order starts host index = convert order (field.shift start) host index := by
    intro start member field listed index covered
    obtain ⟨low, high⟩ := inTlv start member field listed index covered
    rw [relayed_tlv laid member low high,
      transcode_covered order (laid_member laid start member).2 listed covered]
  constructor
  · intro same field listed after
    refine (convert_same_iff order field host).mp fun index covered => ?_
    have later : reparsed length ≤ index := after.trans covered.1
    rcases List.mem_append.mp listed with head | tlv
    · obtain ⟨early, other⟩ := inHead field head index covered
      rw [← headOctet field head index covered]
      exact same index (Or.inl early) later other
    · obtain ⟨start, member, inner⟩ := List.mem_flatMap.mp tlv
      obtain ⟨original, present, rfl⟩ := List.mem_map.mp inner
      obtain ⟨low, high⟩ := inTlv start member original present index covered
      have behind := (laid_member laid start member).1
      rw [← tlvOctet start member original present index covered]
      exact same index (Or.inr ⟨start, member, low, high⟩) later (by omega)
  · intro alike index held later other
    by_cases early : index < 48
    · by_cases covered : ∃ field ∈ hdrFields ++ bodyFields .management, field.Covers index
      · obtain ⟨field, member, inside⟩ := covered
        rw [headOctet field member index inside]
        refine (convert_same_iff order field host).mpr (alike field (List.mem_append_left _ member) ?_)
          index inside
        exact reparsed_field length field member (Nat.lt_of_le_of_lt later inside.2)
      · rw [relayed_host_head laid early other]
        exact convertAll_outside fun field member inside => covered ⟨field, member, inside⟩
    · obtain ⟨start, member, low, high⟩ := held.resolve_left early
      obtain ⟨behind, sized⟩ := laid_member laid start member
      by_cases covered : ∃ field ∈ (readingAt order host start).fields,
          (field.shift start).Covers index
      · obtain ⟨field, listed, inside⟩ := covered
        rw [tlvOctet start member field listed index inside]
        refine (convert_same_iff order _ host).mpr (alike _ (List.mem_append_right _
          (List.mem_flatMap.mpr ⟨start, member, List.mem_map_of_mem listed⟩)) ?_) index inside
        have low := inside.1
        have high := inside.2
        have header : field = Tlv.type ∨ field = Tlv.length ∨ 4 ≤ field.offset := by
          rcases List.mem_cons.mp listed with rfl | listed
          · exact Or.inl rfl
          · rcases List.mem_cons.mp listed with rfl | listed
            · exact Or.inr (Or.inl rfl)
            · exact Or.inr (Or.inr (Reading.valueFields_start field listed))
        have place := placed start member
        simp only [Field.shift_offset, Field.shift_stop] at low high ⊢
        rcases header with rfl | rfl | inner
        · change index < start + 2 at high
          change reparsed length ≤ start + 0
          omega
        · change start + 2 ≤ index at low
          change index < start + 4 at high
          change reparsed length ≤ start + 2
          omega
        · omega
      · have uncovered : ∀ field ∈ (readingAt order host start).fields,
            ¬ (field.shift start).Covers index := fun field listed inside => covered ⟨field, listed, inside⟩
        rw [relayed_tlv laid member low high]
        by_cases lost : ∃ base, (readingAt order host start).scaledNs = some base ∧
            (ScaledNs.nanosecondsLsb.shift (start + base)).Covers index
        · obtain ⟨base, found, inside⟩ := lost
          have within := Reading.scaledNs_placed sized found
          have msb := alike (ScaledNs.nanosecondsMsb.shift (start + base)) (by
            rw [← Field.shift_shift]
            exact List.mem_append_right _
              (List.mem_flatMap.mpr ⟨start, member, List.mem_map_of_mem within.msb⟩)) (by
            have first := within.start
            simp only [Field.shift_offset]
            omega)
          have lsb := overwritten start member base found
          simp only [transcode, overwriteLsb, found]
          rw [msb, ← lsb]
          have kept := congrFun
            (store_load .big (ScaledNs.nanosecondsLsb.shift (start + base)) host) index
          exact (store_congr fun outside => absurd inside outside).trans kept
        · exact transcode_uncovered order uncovered fun base found inside =>
            lost ⟨base, found, inside⟩

/-! ## The parsed message -/

variable {wire : Storage} {cnt : Nat}

/-- Reception overwrites the least significant part of every `ScaledNs`. -/
theorem parsed_overwritten (laid : Laid .big wire 48 starts) {start : Nat}
    (member : start ∈ starts) :
    LsbOverwritten order (parsedBuffer order starts wire) start := by
  intro base found
  have behind := (laid_member laid start member).1
  by_cases overlong : (readingAt .big wire start).Overlong
  · have same : readingAt .big wire start = readingAt .big (headed order .management wire) start :=
      readingAt_congr .big fun inner after =>
        (headed_beyond order .management wire (behind.trans after)).symm
    obtain ⟨type, _⟩ := clipped_reading order (headedLaid laid) member (same ▸ overlong)
    have none : (readingAt order (parsedBuffer order starts wire) start).scaledNs = none := by
      rw [Reading.scaledNs]
      simp only [parsedBuffer, type]
    rw [none] at found
    cases found
  · have shape := @parsed_shape order starts wire laid start member overlong
    have sized := (laid_member laid start member).2
    rw [shape.scaledNs] at found
    have placed := Reading.scaledNs_placed sized found
    have received : ∀ inner, start ≤ inner → inner < tlvStop .big wire start →
        parsedBuffer order starts wire inner =
          transcode order (readingAt .big wire start) start wire inner := by
      intro inner after before
      rw [parsed_tlv laid member after before, tlvIn, clip, if_neg overlong]
    have msbIn := Reading.fields_inside sized _ placed.msb
    have lsbIn := placed.inside
    have part : ∀ (reader : ByteOrder) (field : Field), 4 ≤ field.offset →
        field.stop ≤ 4 + (readingAt .big wire start).length →
        load reader (field.shift start) (parsedBuffer order starts wire) =
          load reader (field.shift start)
            (transcode order (readingAt .big wire start) start wire) := by
      intro reader field low high
      refine load_congr reader _ fun inner inside => received inner ?_ ?_
      · exact (Nat.le_add_right _ _).trans inside.1
      · have last := inside.2
        simp only [Field.shift_stop, tlvStop] at last ⊢
        omega
    have start10 := placed.start
    rw [← Field.shift_shift, ← Field.shift_shift,
      part .big _ (by simp only [Field.shift_offset]; omega) lsbIn,
      part order _ (by simp only [Field.shift_offset]; omega) msbIn,
      load_transcode order sized placed.msb, load_convert]
    have bounded : load .big ((ScaledNs.nanosecondsMsb.shift base).shift start) wire < 256 ^ 8 :=
      Nat.lt_trans (load_bound .big _ wire) (show 256 ^ 2 < 256 ^ 8 by decide)
    simp only [transcode, overwriteLsb, found]
    rw [Field.shift_shift, load_store, Field.shift_shift]
    rw [Field.shift_shift] at bounded
    exact Nat.mod_eq_of_lt bounded

/-- The first TLV follows the body at once, and every other one some header later. -/
theorem suffix_placed (suffix : Suffix .big wire cnt 48 starts) :
    ∀ start ∈ starts, start = 48 ∨ 52 ≤ start := by
  cases suffix with
  | done => simp
  | tlv _ rest admitted tail =>
    intro start member
    rcases List.mem_cons.mp member with rfl | later
    · exact Or.inl rfl
    · have behind := (suffix_member tail start later).1
      simp only [tlvStop] at behind
      omega

theorem relayed_shape (laid : Laid order host 48 starts) {start : Nat} (member : start ∈ starts) :
    Reading.SameShape (readingAt order host start)
      (readingAt .big (relayedBuffer order starts host) start) :=
  transcode_shape order (turns_sending order) (laid_member laid start member).2
    fun _ low high => relayed_tlv laid member low high

/-- An even length stays even, also when reception replaces it. -/
theorem parsed_even (laid : Laid .big wire 48 starts) {start : Nat} (member : start ∈ starts)
    (even : (readingAt .big wire start).length % 2 = 0) :
    (readingAt order (parsedBuffer order starts wire) start).length % 2 = 0 := by
  by_cases overlong : (readingAt .big wire start).Overlong
  · have behind := (laid_member laid start member).1
    have same : readingAt .big wire start = readingAt .big (headed order .management wire) start :=
      readingAt_congr .big fun inner after =>
        (headed_beyond order .management wire (behind.trans after)).symm
    obtain ⟨_, length⟩ := clipped_reading order (headedLaid laid) member (same ▸ overlong)
    change (readingAt order (parsedBuffer order starts wire) start).length = clippedLength at length
    rw [length]
    decide
  · rwa [(@parsed_shape order starts wire laid start member overlong).length]

/-- The second parse admits a TLV exactly if it finds one within its length. -/
theorem admitted_relayed (suffix : Suffix .big wire cnt 48 starts) (length : Nat) :
    Admitted .big (relayedBuffer order starts (parsedBuffer order starts wire)) length 48 ↔
      FindsTlv order (parsedBuffer order starts wire) starts length := by
  have laid := suffix_laid suffix
  have hostLaid : Laid order (parsedBuffer order starts wire) 48 starts := parsedLaid laid
  cases suffix with
  | done =>
    have same : ∀ index, 48 ≤ index → relayedBuffer order [] (parsedBuffer order [] wire) index =
        parsedBuffer order [] wire index :=
      fun index late => relayed_apart hostLaid late (by simp)
    constructor
    · exact fun admitted => admitted_congr admitted same
    · exact fun admitted => admitted_congr admitted fun index late => (same index late).symm
  | tlv _ rest admitted tail =>
    have member : 48 ∈ 48 :: rest := List.mem_cons_self
    have shape := relayed_shape hostLaid member
    have ends : tlvStop .big (relayedBuffer order (48 :: rest)
        (parsedBuffer order (48 :: rest) wire)) 48 =
        tlvStop order (parsedBuffer order (48 :: rest) wire) 48 := by
      rw [tlvStop, tlvStop, shape.length]
    constructor
    · intro again
      have fits := again.fits
      rwa [ends] at fits
    · intro within
      refine ⟨?_, ?_, shape.sized⟩
      · rw [shape.length]
        exact parsed_even laid member admitted.even
      · rwa [ends]

/-! ## After forwarding -/

/-- The header of the first TLV, converted twice. -/
theorem header_relayed (laid : Laid order host 48 starts) (member : 48 ∈ starts) {index : Nat}
    (low : 48 ≤ index) (high : index < 52) :
    convertAll order [Tlv.type.shift 48, Tlv.length.shift 48] (relayedBuffer order starts host)
      index = host index := by
  have separate : [Tlv.type.shift 48, Tlv.length.shift 48].Pairwise Field.Apart := by decide
  have sized := (laid_member laid 48 member).2
  have octet : ∀ inner, 48 ≤ inner → inner < 52 → relayedBuffer order starts host inner =
      convertAll order [Tlv.type.shift 48, Tlv.length.shift 48] host inner := by
    intro inner after before
    have covered : (Tlv.type.shift 48).Covers inner ∨ (Tlv.length.shift 48).Covers inner := by
      change (48 ≤ inner ∧ inner < 50) ∨ (50 ≤ inner ∧ inner < 52)
      omega
    rw [relayed_tlv laid member after (by simp only [tlvStop]; omega)]
    rcases covered with inside | inside
    · rw [transcode_covered order sized (by simp [Reading.fields]) inside]
      exact (convertAll_inside separate (by simp) inside).symm
    · rw [transcode_covered order sized (by simp [Reading.fields]) inside]
      exact (convertAll_inside separate (by simp) inside).symm
  have bounds : ∀ field ∈ [Tlv.type.shift 48, Tlv.length.shift 48],
      48 ≤ field.offset ∧ field.stop ≤ 52 := by decide
  calc convertAll order [Tlv.type.shift 48, Tlv.length.shift 48]
        (relayedBuffer order starts host) index
      = convertAll order [Tlv.type.shift 48, Tlv.length.shift 48]
        (convertAll order [Tlv.type.shift 48, Tlv.length.shift 48] host) index := by
        refine convertAll_congr (fun field listed inner covered => ?_) separate (octet index low high)
        have bound := bounds field listed
        exact octet inner (bound.1.trans covered.1) (Nat.lt_of_lt_of_le covered.2 bound.2)
    _ = host index := by rw [convertAll_convertAll separate]

theorem reparsed_short {length : Nat} (short : length < 52) : reparsed length ≤ 48 := by
  rw [reparsed, if_pos short]
  split
  · omega
  · split <;> omega

theorem reparsed_long {length : Nat} (long : 52 ≤ length) : reparsed length = 52 := by
  rw [reparsed, if_neg (by omega), if_neg (by omega), if_neg (by omega)]

/-- The octets after the second parse and the restored hop: those that the parse
reached are the host's again, the others still those of the image. -/
theorem restored_octets (suffix : Suffix .big wire cnt 48 starts) {length : Nat}
    {sent after : Message}
    (image : sent.data = relayedBuffer order starts (parsedBuffer order starts wire))
    (quiet : ¬ FindsTlv order (parsedBuffer order starts wire) starts length)
    (returned : Returned order length sent after) {index : Nat}
    (held : index < 48 ∨ starts ≠ []) :
    (withHops (· + 1) after).data index =
      if index < reparsed length ∨ index = 45 then parsedBuffer order starts wire index
      else relayedBuffer order starts (parsedBuffer order starts wire) index := by
  have laid : Laid order (parsedBuffer order starts wire) 48 starts := parsedLaid (suffix_laid suffix)
  have head : ∀ inner < 48, after.data inner = if inner < reparsed length then
      headed order .management (relayedBuffer order starts (parsedBuffer order starts wire)) inner
      else relayedBuffer order starts (parsedBuffer order starts wire) inner := by
    intro inner early
    rw [returned.head inner early, image]
  by_cases here : index = 45
  · subst here
    have lost : after.data 45 = parsedBuffer order starts wire 45 - 1 := by
      rw [head 45 (by decide), headed_relayed laid (by decide), relayed_hops laid]
      simp
    rw [if_pos (Or.inr rfl)]
    change after.data 45 + 1 = parsedBuffer order starts wire 45
    rw [lost, UInt8.sub_add_cancel]
  have kept : (withHops (· + 1) after).data index = after.data index := setOctet_other here
  simp only [kept, here, or_false]
  by_cases early : index < 48
  · rw [head index early, headed_relayed laid early, if_neg here]
  have late : 48 ≤ index := Nat.le_of_not_lt early
  by_cases short : length < 52
  · have before := reparsed_short short
    rw [returned.short short index late, image, if_neg (by omega)]
  have long : 52 ≤ length := Nat.le_of_not_lt short
  have present := held.resolve_left early
  cases suffix with
  | done => exact absurd rfl present
  | tlv _ rest admitted tail =>
    have member : 48 ∈ 48 :: rest := List.mem_cons_self
    have shape := relayed_shape laid member
    have beyond : length < tlvStop order (parsedBuffer order (48 :: rest) wire) 48 :=
      Nat.lt_of_not_le quiet
    have even : (readingAt .big sent.data 48).length % 2 = 0 := by
      rw [image, shape.length]
      exact parsed_even (suffix_laid (.tlv 48 rest admitted tail)) member admitted.even
    have ends : length < tlvStop .big sent.data 48 := by
      rwa [image, tlvStop, shape.length]
    rw [returned.unfit long even ends index late, image, reparsed_long long]
    by_cases header : index < 52
    · rw [if_pos header, header_relayed laid member late header]
    · rw [if_neg header]
      have bounds : ∀ field ∈ [Tlv.type.shift 48, Tlv.length.shift 48], field.stop ≤ 52 := by decide
      refine convertAll_outside fun field listed covered => header ?_
      exact Nat.lt_of_lt_of_le covered.2 (bounds field listed)

theorem preSend_tlvs (order : ByteOrder) (now : Int) (msg : Message) :
    (preSend order now msg).tlvList = msg.tlvList ∧
      (preSend order now msg).tlvCount = msg.tlvCount := by
  unfold preSend msgPreSend
  cases msgType msg.data <;> exact ⟨rfl, rfl⟩

/-- Without an eligible port the hop is not given back. -/
theorem hop_lost (msg : Message) : ¬ SameCopy order msg (withHops (· - 1) msg) := by
  intro same
  have hops : msg.data 45 - 1 = msg.data 45 := same.octets 45 (Or.inl (by decide))
  have number := congrArg UInt8.toNat hops
  have bound := (msg.data 45).toNat_lt
  rw [UInt8.toNat_sub] at number
  have one : (1 : UInt8).toNat = 1 := rfl
  omega

variable {now : Int} {c : ForwardClock} {p : PortRef}

/-- What is sent on is a management message as before. -/
theorem sent_readable (accepted : Accepted wire cnt .management starts) :
    lowNibble (relayedBuffer order starts (parsedBuffer order starts wire) PtpHeader.ver).toNat =
        ptpVersion ∧
      msgType (relayedBuffer order starts (parsedBuffer order starts wire)) = some .management := by
  have laid := suffix_laid (accepted_suffix accepted)
  constructor
  · rw [relayed_head laid (by decide)]
    exact accepted.version
  · rw [msgType, relayed_head laid (by decide)]
    exact accepted.known

/-- The copy of a message that was sent on, against the message. -/
theorem sent_copy (accepted : Accepted wire cnt .management starts) :
    SameCopy order (decoded order now .management starts (Message.fresh wire))
      (withHops (· + 1) (secondParse order now
        (load order PtpHeader.messageLength (parsedBuffer order starts wire))
        (preSend order now (withHops (· - 1)
          (decoded order now .management starts (Message.fresh wire)))))) ↔
    Undisturbed order (decoded order now .management starts (Message.fresh wire)) := by
  have suffix := accepted_suffix accepted
  have laid := suffix_laid suffix
  have hostLaid : Laid order (parsedBuffer order starts wire) 48 starts := parsedLaid laid
  have image := @decoded_sendable order now cnt wire starts accepted
  obtain ⟨tlvs, count⟩ := preSend_tlvs order now
    (withHops (· - 1) (decoded order now .management starts (Message.fresh wire)))
  generalize preSend order now (withHops (· - 1)
    (decoded order now .management starts (Message.fresh wire))) = sent at image tlvs count
  generalize lengthIs : load order PtpHeader.messageLength (parsedBuffer order starts wire) = length
  obtain ⟨version, known⟩ := @sent_readable order starts wire cnt accepted
  rw [← image] at version known
  have listed : (decoded order now .management starts (Message.fresh wire)).tlvList.map (·.tlv) =
      starts := decoded_starts order now .management starts wire
  have found := @admitted_relayed order starts wire cnt suffix length
  by_cases quiet : FindsTlv order (parsedBuffer order starts wire) starts length
  · have more := @secondParse_admitted order now sent length version known
      (by rw [image]; exact found.mpr quiet)
    constructor
    · intro same
      exact absurd (same.count.trans count.symm) (Nat.ne_of_gt more)
    · intro undisturbed
      refine absurd ?_ undisturbed.quiet
      rw [listed]
      change FindsTlv order (parsedBuffer order starts wire) starts
        (load order PtpHeader.messageLength (parsedBuffer order starts wire))
      rwa [lengthIs]
  · have returned := @secondParse_returned order now sent length version known
      (by rw [image]; exact fun admitted => quiet (found.mp admitted))
    have octet := fun index (held : Held order (parsedBuffer order starts wire) starts index) =>
      @restored_octets order starts wire cnt suffix length sent _ image quiet returned index
        (held.imp_right fun ⟨_, member, _⟩ => List.ne_nil_of_mem member)
    have exactly := relayed_alike hostLaid (suffix_placed suffix)
      (fun start member => @parsed_overwritten order starts wire laid start member) length
    constructor
    · intro same
      have alike := exactly.mp fun index held later other => by
        have kept := same.octets index (by rw [listed]; exact held)
        rwa [octet index held, if_neg (by omega)] at kept
      refine ⟨?_, ?_⟩ <;> rw [listed]
      · change ¬ FindsTlv order (parsedBuffer order starts wire) starts
          (load order PtpHeader.messageLength (parsedBuffer order starts wire))
        rwa [lengthIs]
      · change ∀ field ∈ messageFields order (parsedBuffer order starts wire) starts,
          reparsed (load order PtpHeader.messageLength (parsedBuffer order starts wire)) ≤
            field.offset → _
        rw [lengthIs]
        exact alike
    · intro undisturbed
      have alike := undisturbed.alike
      rw [listed] at alike
      change ∀ field ∈ messageFields order (parsedBuffer order starts wire) starts,
        reparsed (load order PtpHeader.messageLength (parsedBuffer order starts wire)) ≤
          field.offset → _ at alike
      rw [lengthIs] at alike
      refine ⟨fun index held => ?_, returned.tlvs.trans tlvs, returned.count.trans count⟩
      rw [listed] at held
      rw [octet index held]
      by_cases back : index < reparsed length ∨ index = 45
      · rw [if_pos back]
        rfl
      · rw [if_neg back]
        exact exactly.mpr alike index held (by omega) (by omega)

/-- A TLV that is sent on and then found again is listed twice. -/
theorem copy_disturbed (accepted : Accepted wire cnt .management starts)
    (leaves : Leaves c p wire)
    (found : FindsTlv order (parsedBuffer order starts wire) starts
      (load order PtpHeader.messageLength (parsedBuffer order starts wire))) :
    ¬ SameCopy order (decoded order now .management starts (Message.fresh wire))
      (clockForwardMgmtMsg order now c p
        (decoded order now .management starts (Message.fresh wire))).1 := by
  intro same
  rw [forward_spec _ (decoded_flags accepted), if_pos ((leaves_decoded accepted).mpr leaves)] at same
  refine ((sent_copy accepted).mp same).quiet ?_
  rw [decoded_starts]
  exact found

/-- Forwarding leaves the local copy intact exactly if the message is not forwarded,
or if it leaves by some port and its second parse changes nothing.

Proof: a message that does not enter forwarding is left alone, and one that enters without leaving
loses its hop for good. One that leaves is sent and parsed again, and what the second parse makes of
it is compared with what stood there before. -/
theorem local_copy_exact {reached : RecvState}
    (parsed : msgPostRecv order now cnt (Message.fresh wire) = .ok () reached)
    (management : msgType wire = some .management) :
    SameCopy order reached.msg (clockForwardMgmtMsg order now c p reached.msg).1 ↔
      ¬ entersForwarding c p reached.msg.data ∨
        (Leaves c p reached.msg.data ∧ Undisturbed order reached.msg) := by
  obtain ⟨starts, accepted, same⟩ := parsed_management parsed management
  rw [same, forward_spec _ (decoded_flags accepted)]
  by_cases enters :
      entersForwarding c p (decoded order now .management starts (Message.fresh wire)).data
  · by_cases leaves : Leaves c p (decoded order now .management starts (Message.fresh wire)).data
    · rw [if_pos leaves]
      refine (sent_copy accepted).trans ?_
      simp only [enters, leaves, not_true_eq_false, true_and, false_or]
    · rw [if_neg leaves, if_pos enters]
      simp only [enters, leaves, not_true_eq_false, false_and, or_false, iff_false]
      exact hop_lost _
  · have stays : ¬ Leaves c p (decoded order now .management starts (Message.fresh wire)).data :=
      fun leaves => enters leaves.1
    rw [if_neg stays, if_neg enters]
    simp only [enters, not_false_eq_true, true_or, iff_true, Bool.false_eq_true]
    exact ⟨fun _ _ => rfl, rfl, rfl⟩

end LocalCopy

/-- A TLV that was forwarded is listed twice afterwards. -/
theorem statusResponse_listedTwice : ∃ reached,
    msgPostRecv .little 0 104 (Message.fresh statusResponse) = .ok () reached ∧
    msgType statusResponse = some .management ∧
    ¬ SameCopy .little reached.msg
      (clockForwardMgmtMsg .little 0 boundaryClock (.port 0) reached.msg).1 := by
  obtain ⟨last, accesses, _, run⟩ := msgPostRecv_accepted .little 0 (Message.fresh statusResponse)
    statusResponse_accepted
  refine ⟨_, run, by decide, copy_disturbed statusResponse_accepted (by decide) ?_⟩
  have laid := suffix_laid (accepted_suffix statusResponse_accepted)
  have type : (readingAt .big statusResponse 48).type = .management := by decide
  have complete : ¬ (readingAt .big statusResponse 48).Overlong := by
    simp [Reading.Overlong, type]
  have shape := @parsed_shape .little [48] statusResponse laid 48 (by simp) complete
  have sent : load .little PtpHeader.messageLength (parsedBuffer .little [48] statusResponse) =
      load .big PtpHeader.messageLength statusResponse := by
    rw [load_congr .little _ fun index inside => parsed_head laid
      (Nat.lt_of_lt_of_le inside.2 (by decide)), headed,
      load_convertAll (headed_separate .management) (by decide)]
  rw [sent]
  change tlvStop .little (parsedBuffer .little [48] statusResponse) 48 ≤
    load .big PtpHeader.messageLength statusResponse
  rw [tlvStop, shape.length]
  decide

theorem local_copy_exact_statusResponse : ∃ reached,
    msgPostRecv .little 0 104 (Message.fresh statusResponse) = .ok () reached ∧
    (SameCopy .little reached.msg
        (clockForwardMgmtMsg .little 0 boundaryClock (.port 0) reached.msg).1 ↔
      ¬ entersForwarding boundaryClock (.port 0) reached.msg.data ∨
        (Leaves boundaryClock (.port 0) reached.msg.data ∧ Undisturbed .little reached.msg)) := by
  obtain ⟨last, accesses, _, run⟩ := msgPostRecv_accepted .little 0 (Message.fresh statusResponse)
    statusResponse_accepted
  exact ⟨_, run, local_copy_exact run (by decide)⟩

end LinuxPtp
