import LinuxPtp.Forward
import LinuxPtp.RoundTrip

/-!
# The image of a forwarded management message

What the egress ports are handed, octet by octet, in terms of the octets that
were received. All of them get the same image: it is made at the first eligible
port and not touched again.

The image is computed by sending what reception has made of the octets. It is found in parts that
do not overlap, the header with the body and then each TLV, and for each part it is told what it
has in common with the octets received.
-/

namespace LinuxPtp

open Octets Recv

/-! ## The loop over the ports -/

section Loop

variable (order : ByteOrder) (now : Int) (c : ForwardClock) (p : PortRef)

/-- Once converted, the message goes to every further eligible port as it is. -/
theorem forward_presented (outs : List PortRef) (msg : Message) (frames : List Frame) :
    outs.foldl (clockDoForwardMgmt order now c p) ⟨msg, true, frames⟩ =
      ⟨msg, true, frames ++ (outs.filter fun out => eligible c p out msg.data).map
        (transportSend · msg.data)⟩ := by
  induction outs generalizing frames with
  | nil => simp
  | cons out rest inductionHypothesis =>
    rw [List.foldl_cons]
    by_cases fit : eligible c p out msg.data
    · simp only [clockDoForwardMgmt, fit, if_true, inductionHypothesis, List.filter_cons_of_pos,
        List.map_cons, List.append_assoc, List.cons_append, List.nil_append]
    · simp only [clockDoForwardMgmt, fit, inductionHypothesis, Bool.false_eq_true, if_false,
        not_false_eq_true, List.filter_cons_of_neg]

/-- The loop converts the message if some port is eligible, and hands the image to
exactly the eligible ports. -/
theorem forward_loop (outs : List PortRef) (msg : Message)
    (same : isRequest (preSend order now msg).data = isRequest msg.data) :
    outs.foldl (clockDoForwardMgmt order now c p) { msg := msg } =
      if ∃ out ∈ outs, eligible c p out msg.data then
        ⟨preSend order now msg, true, (outs.filter fun out => eligible c p out msg.data).map
          (transportSend · (preSend order now msg).data)⟩
      else { msg := msg } := by
  induction outs with
  | nil => simp
  | cons out rest inductionHypothesis =>
    rw [List.foldl_cons]
    have sameFit : ∀ out, eligible c p out (preSend order now msg).data = eligible c p out msg.data :=
      fun out => by rw [eligible, same, eligible]
    by_cases fit : eligible c p out msg.data
    · simp only [clockDoForwardMgmt, fit, if_true, Bool.false_eq_true, if_false, forward_presented,
        sameFit, List.mem_cons, exists_eq_or_imp, true_or, List.filter_cons_of_pos, List.map_cons,
        List.nil_append, List.cons_append]
    · simp only [clockDoForwardMgmt, fit, Bool.false_eq_true, if_false, inductionHypothesis,
        List.mem_cons, exists_eq_or_imp, false_or, not_false_eq_true, List.filter_cons_of_neg]

end Loop

/-! ## The image -/

section Image

variable (order : ByteOrder)

/-- The buffer after the first parse. -/
def parsedBuffer (starts : List Nat) (wire : Storage) : Storage :=
  starts.foldl (tlvIn order) (headed order .management wire)

/-- The buffer with one hop less, converted for sending. -/
def relayedBuffer (starts : List Nat) (host : Storage) : Storage :=
  starts.foldl (tlvOut order) (headed order .management
    (setOctet ManagementMsg.boundaryHops (host ManagementMsg.boundaryHops - 1) host))

/-- No multi-octet field of header or body covers the message type, the version,
the hop count or the flags. -/
theorem management_uncovered : ∀ field ∈ hdrFields ++ bodyFields .management,
    ∀ index ∈ [0, 1, 45, 46], ¬ field.Covers index := by decide

variable {order} {starts : List Nat} {wire host : Storage}

theorem headed_uncovered {index : Nat} (member : index ∈ [0, 1, 45, 46]) (data : Storage) :
    headed order .management data index = data index :=
  convertAll_outside fun field listed => management_uncovered field listed index member

/-- Changing the hop count and converting the header do not interfere. -/
theorem headed_setOctet (value : UInt8) (data : Storage) {index : Nat} (other : index ≠ 45) :
    headed order .management (setOctet 45 value data) index = headed order .management data index := by
  refine convertAll_congr (fun field listed inner covered => setOctet_other ?_)
    (headed_separate .management) (setOctet_other other)
  rintro rfl
  exact management_uncovered field listed 45 (by decide) covered

/-- The management message that is sent on is the image of the parsed one. -/
theorem preSend_parsed (now : Int) (msg : Message) (known : msgType msg.data = some .management)
    (laid : Laid order msg.data 48 starts)
    (described : Describes order msg.data starts msg.tlvList) :
    (preSend order now (withHops (· - 1) msg)).data = relayedBuffer order starts msg.data := by
  have head : ∀ data, sentHead order .management data = headed order .management data :=
    fun data => by rw [sentHead_eq]; rfl
  have kind : msgType (withHops (· - 1) msg).data = some .management := known
  have beyond : ∀ index, 48 ≤ index → msg.data index =
      headed order .management (withHops (· - 1) msg).data index := by
    intro index after
    rw [headed_beyond order .management _ after]
    exact (setOctet_other (by simp only [ManagementMsg.boundaryHops]; omega)).symm
  have behind := fun start member => (laid_member laid start member).1
  have pointed : Describes order (headed order .management (withHops (· - 1) msg).data) starts
      msg.tlvList := by
    refine ((List.forall₂_and_left starts _).mpr ⟨behind, described⟩).imp ?_
    rintro start extra ⟨low, named⟩
    rwa [← readingAt_congr order fun index after => beyond index (low.trans after)]
  have sent := suffixPreSend_eq order (laid_congr laid beyond) pointed
  simp only [preSend, msgPreSend, kind, Option.getD_some]
  exact (congrArg (suffixPreSend order msg.tlvList) (head _)).trans sent

/-! ## Octet by octet -/

theorem headedLaid (laid : Laid .big wire 48 starts) :
    Laid .big (headed order .management wire) 48 starts :=
  laid_congr laid fun _ beyond => (headed_beyond order .management wire beyond).symm

theorem parsed_head (laid : Laid .big wire 48 starts) {index : Nat} (early : index < 48) :
    parsedBuffer order starts wire index = headed order .management wire index :=
  confined_before (confined_tlvIn order) (headedLaid laid) early

theorem parsedLaid (laid : Laid .big wire 48 starts) :
    Laid order (parsedBuffer order starts wire) 48 starts := received_laid order (headedLaid laid)

/-- The buffer behind the header as the image is made from it. -/
theorem relayed_source (host : Storage) {index : Nat} (late : 48 ≤ index) :
    headed order .management (setOctet ManagementMsg.boundaryHops
      (host ManagementMsg.boundaryHops - 1) host) index = host index := by
  rw [headed_beyond order .management _ late]
  exact setOctet_other (by simp only [ManagementMsg.boundaryHops]; omega)

theorem sourceLaid (laid : Laid order host 48 starts) :
    Laid order (headed order .management (setOctet ManagementMsg.boundaryHops
      (host ManagementMsg.boundaryHops - 1) host)) 48 starts :=
  laid_congr laid fun _ late => (relayed_source host late).symm

/-- Before the suffix the image is the received message with one hop less. -/
theorem relayed_head (laid : Laid .big wire 48 starts) {index : Nat} (early : index < 48) :
    relayedBuffer order starts (parsedBuffer order starts wire) index =
      if index = 45 then wire 45 - 1 else wire index := by
  have hostLaid : Laid order (parsedBuffer order starts wire) 48 starts := parsedLaid laid
  have hops : parsedBuffer order starts wire 45 = wire 45 := by
    rw [parsed_head laid (by decide), headed_uncovered (by decide)]
  rw [relayedBuffer, confined_before (confined_tlvOut order) (sourceLaid hostLaid) early]
  change headed order .management (setOctet 45 (parsedBuffer order starts wire 45 - 1) _) index = _
  rw [hops]
  by_cases here : index = 45
  · subst here
    rw [headed_uncovered (by decide), setOctet_same, if_pos rfl]
  · rw [headed_setOctet _ _ here, if_neg here]
    have twice : headed order .management (headed order .management wire) index = wire index := by
      rw [headed, headed, convertAll_convertAll (headed_separate .management)]
    rw [← twice]
    refine convertAll_congr (fun field listed inner covered => parsed_head laid ?_)
      (headed_separate .management) (parsed_head laid early)
    exact Nat.lt_of_lt_of_le covered.2 (headed_bounds .management field listed)

/-- Inside a TLV the image is the transcoded host TLV. -/
theorem relayed_tlv (laid : Laid order host 48 starts) {start : Nat} (member : start ∈ starts)
    {index : Nat} (low : start ≤ index) (high : index < tlvStop order host start) :
    relayedBuffer order starts host index =
      transcode order (readingAt order host start) start host index := by
  obtain ⟨behind, sized⟩ := laid_member laid start member
  have same : ∀ inner, start ≤ inner → host inner = headed order .management
      (setOctet ManagementMsg.boundaryHops (host ManagementMsg.boundaryHops - 1) host) inner :=
    fun inner after => (relayed_source host (behind.trans after)).symm
  rw [relayedBuffer, confined_inside (confined_tlvOut order) (sourceLaid laid) member low
    (by rwa [← tlvStop_congr same])]
  exact ((confined_tlvOut order).inside host _ start index sized same low high).symm

/-- Behind the header and outside the TLVs nothing is converted. -/
theorem relayed_apart (laid : Laid order host 48 starts) {index : Nat} (late : 48 ≤ index)
    (apart : ∀ start ∈ starts, index < start ∨ tlvStop order host start ≤ index) :
    relayedBuffer order starts host index = host index := by
  rw [relayedBuffer, confined_apart (confined_tlvOut order) (sourceLaid laid), relayed_source host late]
  intro start member
  have behind := (laid_member laid start member).1
  rw [tlvStop_congr fun inner after => relayed_source host (behind.trans after)]
  exact apart start member

theorem parsed_tlv (laid : Laid .big wire 48 starts) {start : Nat} (member : start ∈ starts)
    {index : Nat} (low : start ≤ index) (high : index < tlvStop .big wire start) :
    parsedBuffer order starts wire index = tlvIn order wire start index := by
  obtain ⟨behind, sized⟩ := laid_member laid start member
  have same : ∀ inner, start ≤ inner → wire inner = headed order .management wire inner :=
    fun inner after => (headed_beyond order .management wire (behind.trans after)).symm
  rw [parsedBuffer, confined_inside (confined_tlvIn order) (headedLaid laid) member low
    (by rwa [← tlvStop_congr same])]
  exact ((confined_tlvIn order).inside wire _ start index sized same low high).symm

theorem parsed_apart (laid : Laid .big wire 48 starts) {index : Nat} (late : 48 ≤ index)
    (apart : ∀ start ∈ starts, index < start ∨ tlvStop .big wire start ≤ index) :
    parsedBuffer order starts wire index = wire index := by
  rw [parsedBuffer, confined_apart (confined_tlvIn order) (headedLaid laid),
    headed_beyond order .management wire late]
  intro start member
  have behind := (laid_member laid start member).1
  rw [tlvStop_congr fun inner after => headed_beyond order .management wire (behind.trans after)]
  exact apart start member

/-- The parsed TLVs as the host reads them. -/
theorem parsed_shape (laid : Laid .big wire 48 starts) {start : Nat} (member : start ∈ starts)
    (complete : ¬ (readingAt .big wire start).Overlong) :
    Reading.SameShape (readingAt .big wire start)
      (readingAt order (parsedBuffer order starts wire) start) := by
  have behind := (laid_member laid start member).1
  have same : readingAt .big wire start = readingAt .big (headed order .management wire) start :=
    readingAt_congr .big fun inner after =>
      (headed_beyond order .management wire (behind.trans after)).symm
  rw [same] at complete ⊢
  exact received_shape order (headedLaid laid) member complete

/-- In the image of a TLV everything is as received but the part of a `ScaledNs`
that holds the swapped most significant part instead. -/
theorem relayed_wire (laid : Laid .big wire 48 starts) {start : Nat} (member : start ∈ starts)
    (complete : ¬ (readingAt .big wire start).Overlong) {index : Nat} (low : start ≤ index)
    (high : index < tlvStop .big wire start) :
    relayedBuffer order starts (parsedBuffer order starts wire) index =
      transcodedTwice order (readingAt .big wire start).scaledNs start wire index := by
  have shape := @parsed_shape order starts wire laid start member complete
  have sized := (laid_member laid start member).2
  have received : ∀ inner, start ≤ inner → inner < tlvStop .big wire start →
      parsedBuffer order starts wire inner =
        transcode order (readingAt .big wire start) start wire inner := by
    intro inner after before
    rw [parsed_tlv laid member after before, tlvIn, clip, if_neg complete]
  have stop : tlvStop order (parsedBuffer order starts wire) start = tlvStop .big wire start := by
    rw [tlvStop, tlvStop, shape.length]
  rw [relayed_tlv (parsedLaid laid) member low (stop ▸ high),
    transcode_sameShape order shape, transcode_congr order sized received low high,
    transcode_transcode order sized]

/-- The image of a path that was shortened has another length than was received. -/
theorem relayed_overlong (laid : Laid .big wire 48 starts) {start : Nat} (member : start ∈ starts)
    (overlong : (readingAt .big wire start).Overlong) :
    load .big (Tlv.length.shift start)
        (relayedBuffer order starts (parsedBuffer order starts wire)) ≠
      load .big (Tlv.length.shift start) wire := by
  have behind := (laid_member laid start member).1
  have same : readingAt .big wire start = readingAt .big (headed order .management wire) start :=
    readingAt_congr .big fun inner after =>
      (headed_beyond order .management wire (behind.trans after)).symm
  obtain ⟨type, length⟩ := clipped_reading order (headedLaid laid) member (same ▸ overlong)
  have hostLaid : Laid order (parsedBuffer order starts wire) 48 starts := parsedLaid laid
  have sized := (laid_member hostLaid start member).2
  have sent : load .big (Tlv.length.shift start)
      (relayedBuffer order starts (parsedBuffer order starts wire)) = clippedLength := by
    rw [load_congr .big _ fun index inside => relayed_tlv hostLaid member ?_ ?_,
      load_transcode order sized (by simp [Reading.fields]), network_convert]
    · exact length
    · exact (Nat.le_add_right start 2).trans inside.1
    · exact Nat.lt_of_lt_of_le inside.2 (Nat.le_add_right _ _)
  have received : load .big (Tlv.length.shift start) wire = (readingAt .big wire start).length := rfl
  have size : clippedLength = 1432 := by decide
  have max : pathTraceMax = 179 := by decide
  have long := overlong.2
  rw [sent, received]
  omega

/-- Storing into a field what it already holds, and only that, changes nothing. -/
theorem store_same_iff {field : Field} {number : Nat} {data : Storage}
    (bounded : number < 256 ^ field.width) :
    (∀ index, field.Covers index → store .big field number data index = data index) ↔
      load .big field data = number := by
  constructor
  · intro same
    rw [← load_congr .big field same, load_store, Nat.mod_eq_of_lt bounded]
  · rintro rfl index -
    rw [store_load]

/-- The TLVs that forwarding changes: paths that no Announce could carry, and
`ScaledNs` whose least significant part is not the swapped most significant one. -/
def Relayable (order : ByteOrder) (wire : Storage) (start : Nat) : Prop :=
  ¬ (readingAt .big wire start).Overlong ∧
    ∀ base, (readingAt .big wire start).scaledNs = some base →
      load .big (ScaledNs.nanosecondsLsb.shift (start + base)) wire =
        load order (ScaledNs.nanosecondsMsb.shift (start + base)) wire

/-- The image is the received message with one hop less exactly if every TLV is
one that forwarding does not change. -/
theorem relayed_exact {cnt : Nat} (suffix : Suffix .big wire cnt 48 starts) :
    (∀ index < cnt, relayedBuffer order starts (parsedBuffer order starts wire) index =
      if index = 45 then wire 45 - 1 else wire index) ↔
    ∀ start ∈ starts, Relayable order wire start := by
  have laid := suffix_laid suffix
  have msbBound : ∀ base, load order (ScaledNs.nanosecondsMsb.shift base) wire <
      256 ^ (ScaledNs.nanosecondsLsb.shift base).width := fun base =>
    Nat.lt_trans (load_bound order _ wire) (show 256 ^ 2 < 256 ^ 8 by decide)
  have place : ∀ start ∈ starts, ∀ base, (readingAt .big wire start).scaledNs = some base →
      ∀ index, (ScaledNs.nanosecondsLsb.shift (start + base)).Covers index →
        start ≤ index ∧ index < tlvStop .big wire start ∧ index ≠ 45 ∧ index < cnt := by
    intro start member base found index inside
    obtain ⟨behind, admitted⟩ := suffix_member suffix start member
    have placed := (Reading.scaledNs_placed admitted.sized found).inside
    have fits := admitted.fits
    simp only [Field.Covers, Field.shift_offset, Field.shift_stop, tlvStop] at *
    omega
  constructor
  · intro same start member
    obtain ⟨behind, admitted⟩ := suffix_member suffix start member
    have fits := admitted.fits
    have complete : ¬ (readingAt .big wire start).Overlong := by
      intro overlong
      refine @relayed_overlong order starts wire laid start member overlong
        (load_congr .big _ fun index inside => ?_)
      have low : start + 2 ≤ index := inside.1
      have high : index < start + 4 := inside.2
      simp only [tlvStop] at fits
      rw [same index (by omega), if_neg (by omega)]
    refine ⟨complete, fun base found => (store_same_iff (msbBound _)).mp fun index inside => ?_⟩
    obtain ⟨low, high, other, early⟩ := place start member base found index inside
    have image := @relayed_wire order starts wire laid start member complete index low high
    rw [same index early, if_neg other] at image
    rw [found] at image
    exact image.symm
  · intro relayable index inside
    by_cases early : index < 48
    · exact relayed_head laid early
    · have late : 48 ≤ index := Nat.le_of_not_lt early
      rw [if_neg (by omega)]
      by_cases covered : ∃ start ∈ starts, start ≤ index ∧ index < tlvStop .big wire start
      · obtain ⟨start, member, low, high⟩ := covered
        obtain ⟨complete, parts⟩ := relayable start member
        rw [relayed_wire laid member complete low high]
        cases found : (readingAt .big wire start).scaledNs with
        | none => rfl
        | some base =>
          by_cases lost : (ScaledNs.nanosecondsLsb.shift (start + base)).Covers index
          · exact (store_same_iff (msbBound _)).mpr (parts base found) index lost
          · rw [transcodedTwice]
            exact store_outside lost
      · have apart : ∀ start ∈ starts, index < start ∨ tlvStop .big wire start ≤ index := by
          intro start member
          by_contra inTlv
          exact covered ⟨start, member, by omega, by omega⟩
        have hostApart : ∀ start ∈ starts, index < start ∨
            tlvStop order (parsedBuffer order starts wire) start ≤ index := by
          intro start member
          have shape := @parsed_shape order starts wire laid start member (relayable start member).1
          rw [tlvStop, shape.length]
          exact apart start member
        rw [relayed_apart (parsedLaid laid) late hostApart,
          parsed_apart laid late apart]

end Image

end LinuxPtp
