import LinuxPtp.MsgParse
import LinuxPtp.TlvSend
import Mathlib.Data.List.Forall2

/-!
# The octets of a suffix after receiving and after sending

Each TLV of a suffix is transcoded on its own: those before and after it do not
change its octets. Sending visits the TLVs that the message lists, receiving
those that it finds; on either side the other byte order then reads a suffix
with the same TLVs.
-/

namespace LinuxPtp

open Octets

section Images

variable (order : ByteOrder) {data : Storage} {stop start : Nat} {starts : List Nat}

/-! ## Sending -/

theorem confined_tlvOut : Confined order (tlvOut order) := by
  constructor
  · intro data start index sized outside
    exact transcode_outside order sized outside
  · intro left right start index sized same low high
    unfold tlvOut
    rw [← readingAt_congr order same]
    exact transcode_congr order sized (fun other after _ => same other after) low high

/-- The list describes the TLVs that start at the listed offsets. -/
abbrev Describes (data : Storage) (starts : List Nat) (tlvList : List TlvExtra) : Prop :=
  List.Forall₂ (fun start extra => Pointed (readingAt order data start) start extra)
    starts tlvList

/-- Sending described TLVs transcodes them one after another. -/
theorem suffixPreSend_eq {tlvList : List TlvExtra} (laid : Laid order data start starts)
    (described : Describes order data starts tlvList) :
    suffixPreSend order tlvList data = starts.foldl (tlvOut order) data := by
  induction starts generalizing data start tlvList with
  | nil =>
    cases described
    rfl
  | cons first rest inductionHypothesis =>
    cases described with
    | cons pointed others =>
      cases laid with
      | tlv _ _ _ _ sized tail =>
        have beyond := confined_behind (confined_tlvOut order) sized
        rw [suffixPreSend, List.foldl_cons, tlvSendStep_pointed order pointed,
          tlvSendStep_eq order sized, List.foldl_cons]
        refine inductionHypothesis (laid_congr tail beyond) ?_
        have behind := fun later member => (laid_member tail later member).1
        refine ((List.forall₂_and_left rest _).mpr ⟨behind, others⟩).imp ?_
        rintro later extra ⟨low, named⟩
        rwa [← readingAt_congr order fun index after => beyond index (low.trans after)]

/-- The network image of TLVs shows each of them as the host did. -/
theorem sent_shape (laid : Laid order data start starts) {member : Nat} (present : member ∈ starts)
    {wire : Storage} (same : ∀ index, member ≤ index → index < tlvStop order data member →
      wire index = starts.foldl (tlvOut order) data index) :
    Reading.SameShape (readingAt order data member) (readingAt .big wire member) := by
  obtain ⟨behind, sized⟩ := laid_member laid member present
  refine transcode_shape order (turns_sending order) sized fun index low high => ?_
  rw [same index low high]
  exact confined_inside (confined_tlvOut order) laid present low high

/-! ## Receiving -/

/-- After reception the host reads each TLV as the wire showed it, unless its
path was shortened. -/
theorem received_shape (laid : Laid .big data start starts) {member : Nat}
    (present : member ∈ starts) (complete : ¬ (readingAt .big data member).Overlong) :
    Reading.SameShape (readingAt .big data member)
      (readingAt order (starts.foldl (tlvIn order) data) member) :=
  transcode_shape order (turns_receiving order) (laid_member laid member present).2
    fun index low high => by
      rw [confined_inside (confined_tlvIn order) laid present low high, tlvIn, clip,
        if_neg complete]

/-- The length that reception leaves in a path that no Announce could carry. -/
def clippedLength : Nat := pathTraceMax * ClockIdentity.size

/-- A shortened path is still a path, of the greatest admissible length. -/
theorem clipped_reading (laid : Laid .big data start starts) {member : Nat}
    (present : member ∈ starts) (overlong : (readingAt .big data member).Overlong) :
    (readingAt order (starts.foldl (tlvIn order) data) member).type = .pathTrace ∧
      (readingAt order (starts.foldl (tlvIn order) data) member).length = clippedLength := by
  obtain ⟨behind, sized⟩ := laid_member laid member present
  have apart : (Tlv.length.shift member).Apart (Tlv.type.shift member) :=
    Field.shift_apart member (by decide)
  have header : ∀ field : Field, field.stop ≤ 4 →
      load order (field.shift member) (starts.foldl (tlvIn order) data) =
        load order (field.shift member) (tlvIn order data member) := by
    intro field bound
    refine load_congr order _ fun index inside => ?_
    have low := inside.1
    have high := inside.2
    simp only [Field.shift_offset, Field.shift_stop] at low high
    exact confined_inside (confined_tlvIn order) laid present (by omega)
      (by simp only [tlvStop]; omega)
  have clipped : tlvIn order data member = store order (Tlv.length.shift member) clippedLength
      (transcode order (readingAt .big data member) member data) := by
    rw [tlvIn, clip, if_pos overlong]
    rfl
  constructor
  · have word : load order (Tlv.type.shift member) (starts.foldl (tlvIn order) data) =
        (readingAt .big data member).word 0 := by
      rw [header _ (by decide), clipped, load_store_apart apart,
        load_transcode order sized (by simp [Reading.fields]), load_convert]
      rfl
    have type := overlong.1
    rw [Reading.type, ← word] at type
    exact type
  · have word : load order (Tlv.length.shift member) (starts.foldl (tlvIn order) data) =
        clippedLength := by
      rw [header _ (by decide), clipped, load_store]
      rfl
    exact word

/-- What the first parse left in the buffer is fit for sending: the TLVs are laid
out where they were, none longer than on the wire, and the recorded descriptors
point into them. -/
theorem received_sendable (laid : Laid .big data start starts) {member : Nat}
    (present : member ∈ starts) :
    (readingAt order (starts.foldl (tlvIn order) data) member).WellSized ∧
      tlvStop order (starts.foldl (tlvIn order) data) member ≤ tlvStop .big data member ∧
      Pointed (readingAt order (starts.foldl (tlvIn order) data) member) member
        ((readingAt .big data member).descriptor member) := by
  by_cases overlong : (readingAt .big data member).Overlong
  · obtain ⟨type, length⟩ := clipped_reading order laid present overlong
    obtain ⟨path, long⟩ := overlong
    have size : clippedLength = 1432 := by decide
    have max : pathTraceMax = 179 := by decide
    refine ⟨by simp only [Reading.WellSized, type], ?_, ?_⟩
    · rw [tlvStop, tlvStop, length]
      omega
    · refine ⟨Reading.descriptor_tlv _ _, ?_, ?_⟩ <;> simp [type]
  · have shape := received_shape order laid present overlong
    refine ⟨shape.sized, ?_, ?_⟩
    · rw [tlvStop, tlvStop, shape.length]
    · rw [← shape.descriptor member]
      exact pointed_descriptor _ member

/-- Well-sized TLVs none of which reaches the next stay laid out when they shrink. -/
theorem received_laid (laid : Laid .big data start starts) :
    Laid order (starts.foldl (tlvIn order) data) start starts := by
  have fit := fun member present => @received_sendable order data start starts laid member present
  generalize starts.foldl (tlvIn order) data = received at fit
  induction laid with
  | none start => exact .none start
  | tlv start first rest behind sized others inductionHypothesis =>
    have here := fit first (by simp)
    refine .tlv start first rest behind here.1 ?_
    have tail := inductionHypothesis fun member later => fit member (List.mem_cons_of_mem _ later)
    cases tail with
    | none => exact .none _
    | tlv _ next later after nextSized nextOthers =>
      exact .tlv _ next later (here.2.1.trans after) nextSized nextOthers

/-! ## The same TLVs on both sides -/

/-- A suffix whose TLVs look alike in another buffer is a suffix there. -/
theorem suffix_shape {reader writer : ByteOrder} {other : Storage}
    (suffix : Suffix reader data stop start starts)
    (shapes : ∀ member ∈ starts,
      Reading.SameShape (readingAt reader data member) (readingAt writer other member)) :
    Suffix writer other stop start starts := by
  induction suffix with
  | done start short => exact .done start short
  | tlv start rest admitted tail inductionHypothesis =>
    have shape := shapes start (by simp)
    have ends : tlvStop writer other start = tlvStop reader data start := by
      rw [tlvStop, tlvStop, shape.length]
    refine .tlv start rest ⟨?_, ?_, shape.sized⟩ ?_
    · rw [shape.length]
      exact admitted.even
    · rw [ends]
      exact admitted.fits
    · rw [ends]
      exact inductionHypothesis fun member present => shapes member (List.mem_cons_of_mem _ present)

/-- Shapes that look alike give the same descriptors. -/
theorem descriptors_shape {reader writer : ByteOrder} {other : Storage}
    (shapes : ∀ member ∈ starts,
      Reading.SameShape (readingAt reader data member) (readingAt writer other member)) :
    starts.map (fun start => (readingAt writer other start).descriptor start) =
      starts.map fun start => (readingAt reader data start).descriptor start :=
  List.map_congr_left fun member present => (shapes member present).descriptor member

end Images

end LinuxPtp
