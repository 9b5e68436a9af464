import LinuxPtp.SuffixImage

/-!
# A message survives transmission

A well-formed message in host order is prepared by `msg_pre_send`, and its
octets are parsed by `msg_post_recv` on a host of the same byte order. Header,
body and TLVs come back as they were, with two reservations that the code makes:
the least significant part of a `ScaledNs` is lost, and the time stamp of some
bodies is handed over in `ts.pdu` instead of being converted back in place.
-/

namespace LinuxPtp

open Octets Recv

/-- The types whose time stamp `msg_pre_send` converts. -/
def restamped : MsgType → Bool
  | .followUp | .delayResp | .pdelayResp | .pdelayRespFollowUp => true
  | .sync | .delayReq | .pdelayReq | .announce | .signaling | .management => false

def stampFields (type : MsgType) : List Field :=
  if restamped type then
    [bodyTimestamp.secondsLsb, bodyTimestamp.secondsMsb, bodyTimestamp.nanoseconds]
  else []

section RoundTrip

variable (order : ByteOrder)

/-- `messageLength` of a message in host order. -/
def messageLength (data : Storage) : Nat := load order PtpHeader.messageLength data

/-- A well-formed message in host order with the TLVs that start at the listed
offsets. -/
structure HostMessage (msg : Message) (type : MsgType) (starts : List Nat) : Prop where
  version : lowNibble (msg.data PtpHeader.ver).toNat = ptpVersion
  known : msgType msg.data = some type
  long : pduLen type ≤ messageLength order msg.data
  suffix : SuffixOf order msg.data (messageLength order msg.data) type starts
  described : Describes order msg.data starts msg.tlvList
  counted : msg.tlvCount = starts.length
  paths : ∀ start ∈ starts, ¬ (readingAt order msg.data start).Overlong

/-- The offsets of the least significant part of a `ScaledNs` in some TLV. -/
def InScaledNs (data : Storage) (starts : List Nat) (index : Nat) : Prop :=
  ∃ start ∈ starts, ∃ base, (readingAt order data start).scaledNs = some base ∧
    (ScaledNs.nanosecondsLsb.shift (start + base)).Covers index

/-- The message that came back: everything is as it was, but for the part of a
`ScaledNs` and for the time stamps that were parsed into `ts.pdu`. -/
structure CameBack (msg : Message) (type : MsgType) (starts : List Nat) (reached : Message) :
    Prop where
  octets : ∀ index < messageLength order msg.data, ¬ InScaledNs order msg.data starts index →
    (restamped type → index < 34 ∨ 44 ≤ index) → reached.data index = msg.data index
  time : restamped type → reached.pdu =
    { sec := load order bodyTimestamp.secondsMsb msg.data * 2 ^ 32 +
        load order bodyTimestamp.secondsLsb msg.data
      nsec := load order bodyTimestamp.nanoseconds msg.data }
  tlvs : reached.tlvList =
    starts.map fun start => (readingAt order msg.data start).descriptor start
  count : reached.tlvCount = msg.tlvCount

/-! ## Header and body -/

/-- Everything that sending converts before the suffix. -/
def sentHead (type : MsgType) (data : Storage) : Storage :=
  bodyPreSend order type (hdrPreSend order data)

theorem stamped_separate (type : MsgType) :
    (stampFields type ++ (hdrFields ++ bodyFields type)).Pairwise Field.Apart := by
  cases type <;> decide

theorem stamped_bounds (type : MsgType) :
    ∀ field ∈ stampFields type ++ (hdrFields ++ bodyFields type), field.stop ≤ pduLen type := by
  cases type <;> decide

theorem stampFields_bounds (type : MsgType) :
    ∀ field ∈ stampFields type, restamped type ∧ 34 ≤ field.offset ∧ field.stop ≤ 44 := by
  cases type <;> decide

/-- Sending converts the fields that reception converts, and the time stamp. -/
theorem sentHead_eq (type : MsgType) (data : Storage) :
    sentHead order type data =
      convertAll order (stampFields type ++ (hdrFields ++ bodyFields type)) data := by
  have swapped : (hdrFields ++ (stampFields type ++ bodyFields type)).Perm
      (stampFields type ++ (hdrFields ++ bodyFields type)) := by
    rw [← List.append_assoc, ← List.append_assoc]
    exact List.perm_append_comm.append_right _
  have separate : (hdrFields ++ (stampFields type ++ bodyFields type)).Pairwise Field.Apart :=
    swapped.symm.pairwise (stamped_separate type) Field.apart_symm
  rw [← convertAll_perm swapped separate, convertAll_append]
  have head : hdrPreSend order data = convertAll order hdrFields data := by
    simp only [hdrPreSend, hton, hdrFields, List.map_cons, List.map_nil, Field.shift, Nat.zero_add]
  rw [sentHead, head]
  cases type <;> rfl

theorem sentHead_beyond (type : MsgType) (data : Storage) {index : Nat}
    (beyond : pduLen type ≤ index) : sentHead order type data index = data index := by
  rw [sentHead_eq]
  refine convertAll_outside fun field member inside => ?_
  have bound := stamped_bounds type field member
  simp only [Field.Covers] at inside
  omega

theorem stamped_above (type : MsgType) :
    ∀ field ∈ stampFields type ++ (hdrFields ++ bodyFields type), 2 ≤ field.offset := by
  cases type <;> decide

theorem timestamped_of_restamped {type : MsgType} (stamped : restamped type) :
    timestamped type := by
  revert stamped
  cases type <;> decide

/-- The parsed time looks only at the time stamp. -/
theorem pduTime_congr {left right : Storage}
    (same : ∀ index, index < 44 → left index = right index) : pduTime left = pduTime right := by
  have bounds : ∀ field ∈ [bodyTimestamp.secondsLsb, bodyTimestamp.secondsMsb,
      bodyTimestamp.nanoseconds], field.stop ≤ 44 := by decide
  have loads : ∀ field ∈ [bodyTimestamp.secondsLsb, bodyTimestamp.secondsMsb,
      bodyTimestamp.nanoseconds], load .big field left = load .big field right :=
    fun field member => load_congr .big field fun index inside =>
      same index (Nat.lt_of_lt_of_le inside.2 (bounds field member))
  simp only [pduTime, loads _ (by simp : bodyTimestamp.secondsLsb ∈ _),
    loads _ (by simp : bodyTimestamp.secondsMsb ∈ _),
    loads _ (by simp : bodyTimestamp.nanoseconds ∈ _)]

/-- The time parsed from a sent body is the time that the host wrote there. -/
theorem pduTime_sentHead {type : MsgType} (stamped : restamped type) (data : Storage) :
    pduTime (sentHead order type data) =
      { sec := load order bodyTimestamp.secondsMsb data * 2 ^ 32 +
          load order bodyTimestamp.secondsLsb data
        nsec := load order bodyTimestamp.nanoseconds data } := by
  have listed : ∀ field ∈ [bodyTimestamp.secondsLsb, bodyTimestamp.secondsMsb,
      bodyTimestamp.nanoseconds],
      load .big field (sentHead order type data) = load order field data := by
    intro field member
    rw [sentHead_eq]
    refine network_convertAll (stamped_separate type) (List.mem_append_left _ ?_)
    simpa only [stampFields, stamped, if_true] using member
  simp only [pduTime, listed _ (by simp : bodyTimestamp.secondsLsb ∈ _),
    listed _ (by simp : bodyTimestamp.secondsMsb ∈ _),
    listed _ (by simp : bodyTimestamp.nanoseconds ∈ _), Nat.add_comm]

/-- Receiving header and body after sending them leaves the time stamp converted. -/
theorem headed_sentHead (type : MsgType) (data : Storage) :
    headed order type (sentHead order type data) = convertAll order (stampFields type) data := by
  rw [sentHead_eq, convertAll_append, headed, convertAll_convertAll (headed_separate type)]

/-! ## The suffix -/

/-- An octet of a TLV after sending and receiving it, on any buffer that holds
the received octets: both transcode the same fields, so only what they overwrite
is lost. -/
theorem tlv_round_trip {host wire : Storage} {first start : Nat} {starts : List Nat}
    (laid : Laid order host first starts) (member : start ∈ starts)
    (same : ∀ index, start ≤ index → index < tlvStop order host start →
      wire index = starts.foldl (tlvOut order) host index)
    (path : ¬ (readingAt order host start).Overlong) {index : Nat} (low : start ≤ index)
    (high : index < tlvStop order host start) (kept : ¬ InScaledNs order host starts index) :
    tlvIn order wire start index = host index := by
  have sized := (laid_member laid start member).2
  have shape := sent_shape order laid member same
  have complete : ¬ (readingAt .big wire start).Overlong :=
    fun long => path ((overlong_sameShape shape).mp long)
  have sent : ∀ other, start ≤ other → other < tlvStop order host start →
      wire other = transcode order (readingAt order host start) start host other := by
    intro other after before
    rw [same other after before]
    exact confined_inside (confined_tlvOut order) laid member after before
  rw [tlvIn, clip, if_neg complete, transcode_sameShape order shape,
    transcode_congr order sized sent low high, transcode_transcode order sized]
  cases found : (readingAt order host start).scaledNs with
  | none => rfl
  | some base =>
    rw [transcodedTwice]
    exact store_outside fun inside => kept ⟨start, member, base, found, inside⟩

/-- What sending makes of a host message: its octets before the suffix, its TLVs
as the other side reads them, and the octets that reception restores. -/
structure Image (type : MsgType) (starts : List Nat) (data buffer : Storage) (stop : Nat) :
    Prop where
  head : ∀ index < pduLen type, buffer index = sentHead order type data index
  shapes : ∀ start ∈ starts,
    Reading.SameShape (readingAt order data start) (readingAt .big buffer start)
  octets : ∀ index < stop, ¬ InScaledNs order data starts index →
    (restamped type → index < 34 ∨ 44 ≤ index) →
    starts.foldl (tlvIn order) (headed order type buffer) index = data index

/-- The image of a host message on any buffer that holds its octets. -/
theorem image_of_sent {type : MsgType} {starts : List Nat} {data buffer : Storage} {stop cnt : Nat}
    (suffix : Suffix order data stop (pduLen type) starts) (whole : pduLen type ≤ cnt)
    (within : stop ≤ cnt) (paths : ∀ start ∈ starts, ¬ (readingAt order data start).Overlong)
    (sent : ∀ index < cnt,
      buffer index = starts.foldl (tlvOut order) (sentHead order type data) index) :
    Image order type starts data buffer cnt := by
  obtain ⟨host, sentHost⟩ : ∃ host, host = sentHead order type data := ⟨_, rfl⟩
  rw [← sentHost] at sent
  have beyond : ∀ index, pduLen type ≤ index → data index = host index := fun index after => by
    rw [sentHost, sentHead_beyond order type data after]
  have readings : ∀ start ∈ starts, readingAt order host start = readingAt order data start := by
    intro start member
    have low := (suffix_member suffix start member).1
    exact (readingAt_congr order fun index after => beyond index (low.trans after)).symm
  have hostSuffix := suffix_congr suffix beyond
  have head : ∀ index < pduLen type, buffer index = host index := fun index early => by
    rw [sent index (by omega)]
    exact confined_outside (confined_tlvOut order) hostSuffix (Or.inl early)
  have received : ∀ index, pduLen type ≤ index → index < cnt →
      headed order type buffer index = starts.foldl (tlvOut order) host index :=
    fun index after inside => by rw [headed_beyond order type buffer after, sent index inside]
  have laid := suffix_laid hostSuffix
  have inTlv : ∀ start ∈ starts, ∀ index, start ≤ index → index < tlvStop order host start →
      headed order type buffer index = starts.foldl (tlvOut order) host index := by
    intro start member index low high
    obtain ⟨behind, admitted⟩ := suffix_member hostSuffix start member
    have fits := admitted.fits
    exact received index (behind.trans low) (by omega)
  have hostShapes := fun start member => sent_shape order laid member (inTlv start member)
  have wireSuffix := suffix_shape hostSuffix hostShapes
  refine ⟨fun index early => by rw [head index early, sentHost], fun start member => ?_, ?_⟩
  · have low := (suffix_member suffix start member).1
    rw [← readings start member]
    have shape := hostShapes start member
    rwa [readingAt_congr .big fun index after =>
      headed_beyond order type buffer (low.trans after)] at shape
  intro index inside kept unstamped
  have hostKept : ¬ InScaledNs order host starts index := by
    rintro ⟨start, member, place⟩
    rw [readings start member] at place
    exact kept ⟨start, member, place⟩
  by_cases early : index < pduLen type
  · have same : headed order type buffer index = headed order type host index := by
      refine convertAll_congr (fun field member other covered => head other ?_)
        (headed_separate type) (head index early)
      exact Nat.lt_of_lt_of_le covered.2 (headed_bounds type field member)
    rw [confined_outside (confined_tlvIn order) wireSuffix (Or.inl early), same, sentHost,
      headed_sentHead]
    refine convertAll_outside fun field member covered => ?_
    obtain ⟨stamped, low, high⟩ := stampFields_bounds type field member
    have outside := unstamped stamped
    simp only [Field.Covers] at covered
    omega
  · have late : pduLen type ≤ index := Nat.le_of_not_lt early
    rw [beyond index late]
    by_cases covered : ∃ start ∈ starts, start ≤ index ∧ index < tlvStop order host start
    · obtain ⟨start, member, low, high⟩ := covered
      have sameStop : tlvStop .big (headed order type buffer) start = tlvStop order host start := by
        rw [tlvStop, tlvStop, (hostShapes start member).length]
      rw [confined_inside (confined_tlvIn order) (suffix_laid wireSuffix) member low
        (sameStop ▸ high)]
      refine tlv_round_trip order laid member (inTlv start member) ?_ low high hostKept
      rw [readings start member]
      exact paths start member
    · have apart : ∀ start ∈ starts, index < start ∨ tlvStop order host start ≤ index := by
        intro start member
        by_contra inside
        exact covered ⟨start, member, by omega, by omega⟩
      have wireApart : ∀ start ∈ starts,
          index < start ∨ tlvStop .big (headed order type buffer) start ≤ index := by
        intro start member
        rw [tlvStop, (hostShapes start member).length]
        exact apart start member
      rw [confined_apart (confined_tlvIn order) (suffix_laid wireSuffix) wireApart,
        received index late inside, confined_apart (confined_tlvOut order) laid apart]

/-- A well-formed message can be sent, and parsing exactly its octets succeeds and
gives it back.

Proof: the host's suffix is a suffix of the network image with the same TLVs, so
the image is accepted. Before the suffix every field but the time stamp is
converted twice; inside a TLV the two transcodings cancel; elsewhere neither
direction changes anything. -/
theorem send_receive (sendTime recvTime : Int) {msg : Message} {type : MsgType}
    {starts : List Nat} (wellFormed : HostMessage order msg type starts) :
    ∃ sent, msgPreSend order sendTime msg = some sent ∧
      ∀ buffer : Storage,
        (∀ index < messageLength order msg.data, buffer index = sent.data index) →
        ∃ reached, msgPostRecv order recvTime (messageLength order msg.data)
            (Message.fresh buffer) = .ok () reached ∧
          CameBack order msg type starts reached.msg := by
  obtain ⟨version, known, long, suffixOf, described, counted, paths⟩ := wellFormed
  obtain ⟨stop, within, suffix, transfer⟩ := suffixOf_region suffixOf long
  have base := pduLen_bound type
  refine ⟨_, by rw [msgPreSend, known], fun buffer received => ?_⟩
  have hostBeyond : ∀ index, pduLen type ≤ index →
      msg.data index = sentHead order type msg.data index :=
    fun index after => (sentHead_beyond order type msg.data after).symm
  have hostDescribed : Describes order (sentHead order type msg.data) starts msg.tlvList := by
    have behind := fun start member => (suffix_member suffix start member).1
    refine ((List.forall₂_and_left starts _).mpr ⟨behind, described⟩).imp ?_
    rintro start extra ⟨low, pointed⟩
    rwa [← readingAt_congr order fun index after => hostBeyond index (low.trans after)]
  have sent : ∀ index < messageLength order msg.data,
      buffer index = starts.foldl (tlvOut order) (sentHead order type msg.data) index := by
    intro index inside
    rw [received index inside]
    have wireLaid := laid_congr (suffix_laid suffix) hostBeyond
    exact congrFun (suffixPreSend_eq order wireLaid hostDescribed) index
  have image := image_of_sent order suffix long within paths sent
  have unconverted : ∀ index < 2, buffer index = msg.data index := by
    intro index early
    rw [image.head index (by omega), sentHead_eq]
    refine convertAll_outside fun field member covered => ?_
    have above := stamped_above type field member
    simp only [Field.Covers] at covered
    omega
  have accepted : Accepted buffer (messageLength order msg.data) type starts := by
    refine ⟨?_, ?_, long, transfer .big buffer (suffix_shape suffix image.shapes)⟩
    · rw [unconverted _ (by decide)]
      exact version
    · rw [msgType, unconverted _ (by decide)]
      exact known
  obtain ⟨last, accesses, _, run⟩ :=
    msgPostRecv_accepted order recvTime (Message.fresh buffer) accepted
  refine ⟨_, run, ⟨image.octets, fun stamped => ?_, ?_, ?_⟩⟩
  · have time := pduTime_sentHead order stamped msg.data
    have same : pduTime buffer = pduTime (sentHead order type msg.data) :=
      pduTime_congr fun index inside => image.head index (by omega)
    simp only [decoded, timestamped_of_restamped stamped, if_true, Message.fresh, same, time]
  · simp only [decoded, Message.fresh, List.nil_append]
    exact descriptors_shape image.shapes
  · simp only [decoded, Message.fresh, Nat.zero_add, counted]

end RoundTrip

/-- A Follow_Up with 802.1 follow-up information, as a little-endian host has it. -/
def followUpMessage : Message where
  data := bufferOf ([0x08, 0x02, 76, 0] ++ List.replicate 30 0 ++ [1, 0, 5, 0, 0, 0, 7, 0, 0, 0] ++
    [3, 0, 28, 0, 0x00, 0x80, 0xC2, 0, 0, 1] ++ List.replicate 22 9)
  pdu := ⟨0, 0⟩
  host := 0
  tlvList := [{ tlv := 44 }]
  tlvCount := 1

theorem followUpMessage_wellFormed : HostMessage .little followUpMessage .followUp [44] := by
  have reading : (readingAt .little followUpMessage.data 44).type = .organizationExtension := by
    decide
  refine ⟨by decide, by decide, by decide, ?_, ?_, rfl, ?_⟩
  · refine .tlv 44 [] ⟨by decide, by decide, ?_⟩ (.done 76 (by decide))
    simp only [Reading.WellSized, reading]
    exact ⟨by decide, fun _ => by decide⟩
  · refine List.forall₂_cons.mpr ⟨⟨rfl, ?_, ?_⟩, List.Forall₂.nil⟩
    · simp [reading]
    · simp [reading]
  · intro start member
    obtain rfl := List.mem_singleton.mp member
    decide

theorem send_receive_followUp : ∃ sent, msgPreSend .little 0 followUpMessage = some sent ∧
    ∃ reached, msgPostRecv .little 0 76 (Message.fresh sent.data) = .ok () reached ∧
      CameBack .little followUpMessage .followUp [44] reached.msg := by
  obtain ⟨sent, isSent, cameBack⟩ := send_receive .little 0 0 followUpMessage_wellFormed
  exact ⟨sent, isSent, cameBack sent.data fun _ _ => rfl⟩

end LinuxPtp
