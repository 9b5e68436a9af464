import LinuxPtp.Layout
import LinuxPtp.OctetLists
import LinuxPtp.PacketFilter
import LinuxPtp.Runs

/-!
# Frames of the raw transport

`raw_recv` reads a frame so that its header comes to lie in front of the message buffer. How long
the header is, it takes from the frame before, on either of the two sockets. `Suits` says which
frames it reads rightly: those that are tagged as the mode has it and that the filter does not cut.

The filter is a program that is run on the frame, not a predicate that stands for it. What it lets
through is then described, and for such frames the returned octets are compared with what follows
the header.
-/

namespace LinuxPtp

open Octets PacketFilter

/-! ## The code (`raw.c`, `ether.h`) -/

def ethHlen : Nat := 14
def vlanHlen : Nat := 4
def offEtype : Nat := 12
def ethP1588 : Nat := 0x88F7
def ethP8021q : Nat := 0x8100
def ptpGenBit : Nat := 0x08

/-- `sizeof(struct vlan_hdr)`. -/
def vlanHdrSize : Nat := 18

/-- `raw_filter` as `raw_configure` attaches it to a socket. -/
def rawFilter (event : Bool) : List Insn :=
  [.ldh offEtype,
    .jeq ethP8021q 0 4,
    .ldh (offEtype + 4),
    .jeq ethP1588 0 7,
    .ldb (ethHlen + vlanHlen),
    .ja 2,
    .jeq ethP1588 0 4,
    .ldb ethHlen,
    .and ptpGenBit,
    if event then .jeq 0 0 1 else .jeq 0 1 0,
    .ret 1500,
    .ret 0]

/-- `MSG_HEADROOM`: where the buffer lies in `struct message_storage`. -/
def msgHeadroom : Nat := 24

/-- What `raw_recv` leaves behind. -/
structure RawReceived where
  vlan : Bool
  storage : Storage
  cnt : Int

/-- `raw_recv` of the octets that are queued. `sk_receive` stores what fits. -/
def rawRecv (vlan : Bool) (storage : Storage) (queued : List UInt8) : RawReceived :=
  let hlen := if vlan then vlanHdrSize else ethHlen
  let ptr := msgHeadroom - hlen
  let buflen := messageDataSize + hlen
  let received := queued.take buflen
  let storage := writeOctets ptr received storage
  let cnt : Int := received.length - hlen
  if cnt < 0 then ⟨vlan, storage, cnt⟩
  else
    let type := load .big ⟨ptr + offEtype, 2⟩ storage
    let vlan := if vlan then decide (type ≠ ethP1588) else decide (type = ethP8021q)
    ⟨vlan, storage, cnt⟩

/-- A frame comes in at one of the sockets and is read into a message. -/
structure Arrival where
  event : Bool
  frame : List UInt8
  storage : Storage

/-- A buffer that was returned, with the frame it was read from. -/
structure RawBuffer where
  frame : List UInt8
  storage : Storage
  cnt : Nat

/-- The mode after an arrival. -/
def rawMode (vlan : Bool) (a : Arrival) : Bool :=
  match letThrough (rawFilter a.event) a.frame with
  | [] => vlan
  | queued => (rawRecv vlan a.storage queued).vlan

/-- The buffer that is returned for an arrival, if any. -/
def rawBuffer (vlan : Bool) (a : Arrival) : Option RawBuffer :=
  match letThrough (rawFilter a.event) a.frame with
  | [] => none
  | queued =>
    let r := rawRecv vlan a.storage queued
    if r.cnt < 0 then none else some ⟨a.frame, r.storage, r.cnt.toNat⟩

/-- The buffers that a transport returns. -/
def rawBuffers : Bool → List Arrival → List RawBuffer
  | _, [] => []
  | vlan, a :: arrivals => (rawBuffer vlan a).toList ++ rawBuffers (rawMode vlan a) arrivals

/-! ## Frames -/

/-- A frame has a VLAN header. -/
def tagged (frame : List UInt8) : Bool := half frame offEtype = some ethP8021q

/-- How long the header of a frame is. -/
def headerLength (frame : List UInt8) : Nat := if tagged frame then vlanHdrSize else ethHlen

/-- A PTP frame for a socket. -/
structure PtpFrame (event : Bool) (frame : List UInt8) : Prop where
  type : half frame (if tagged frame then offEtype + 4 else offEtype) = some ethP1588
  kind : ∃ octet, byte frame (headerLength frame) = some octet ∧
    (octet &&& ptpGenBit = 0 ↔ event)

/-- The frames that are read rightly in a mode, or not at all. -/
inductive Suits : Bool → List UInt8 → Prop where
  /-- The header is of the expected kind and the filter lets the whole frame through. -/
  | expected {vlan : Bool} {frame : List UInt8} (same : tagged frame = vlan)
      (whole : frame.length ≤ 1500) : Suits vlan frame
  /-- Too short for the header that is expected. -/
  | short {frame : List UInt8} (untagged : tagged frame = false)
      (short : frame.length < vlanHdrSize) : Suits true frame
  /-- Four octets are cut off, and each octet is like the fourth one behind it. -/
  | periodic {frame : List UInt8} (also : tagged frame = true) (length : frame.length = 1504)
      (repeats : ∀ index, ethHlen ≤ index → index < 1500 → frame[index]? = frame[index + 4]?) :
      Suits false frame

/-- The buffer holds what follows the header of the frame, and nothing else. -/
def RawBuffer.Exact (b : RawBuffer) : Prop :=
  b.cnt = (b.frame.drop (headerLength b.frame)).length ∧
    octetsAt msgHeadroom b.cnt b.storage = b.frame.drop (headerLength b.frame)

/-! ## The filter -/

section Filter

variable {event : Bool} {frame : List UInt8}

/-- The last instructions of the filter: the general bit decides. -/
theorem run_test (octet : Nat) :
    run frame ((rawFilter event).drop 8) 0 octet =
      if octet &&& ptpGenBit = 0 ↔ event then 1500 else 0 := by
  cases event with
  | true =>
    by_cases clear : octet &&& ptpGenBit = 0 <;> simp [rawFilter, run, clear]
  | false =>
    by_cases clear : octet &&& ptpGenBit = 0 <;> simp [rawFilter, run, clear]

/-- The filter on frames with a VLAN header. -/
theorem run_tagged (outer : half frame offEtype = some ethP8021q) :
    run frame (rawFilter event) 0 0 = (half frame (offEtype + 4)).elim 0 fun type =>
      if type = ethP1588 then
        (byte frame vlanHdrSize).elim 0 fun octet =>
          if octet &&& ptpGenBit = 0 ↔ event then 1500 else 0
      else 0 := by
  simp only [rawFilter, run, outer, Option.elim_some, if_true]
  congr 1
  funext type
  by_cases ptp : type = ethP1588
  · rw [if_pos ptp, if_pos ptp]
    exact congrArg ((byte frame vlanHdrSize).elim 0) (funext run_test)
  · rw [if_neg ptp, if_neg ptp]
    rfl

/-- The filter on all other frames. -/
theorem run_untagged (outer : half frame offEtype ≠ some ethP8021q) :
    run frame (rawFilter event) 0 0 = (half frame offEtype).elim 0 fun type =>
      if type = ethP1588 then
        (byte frame ethHlen).elim 0 fun octet =>
          if octet &&& ptpGenBit = 0 ↔ event then 1500 else 0
      else 0 := by
  rw [rawFilter, run]
  cases found : half frame offEtype with
  | none => rfl
  | some type =>
    have other : type ≠ ethP8021q := fun same => outer (found.trans (congrArg some same))
    rw [Option.elim_some, Option.elim_some, run, if_neg other]
    by_cases ptp : type = ethP1588
    · rw [if_pos ptp]
      simp only [run, if_pos ptp]
      exact congrArg ((byte frame ethHlen).elim 0) (funext run_test)
    · rw [if_neg ptp]
      simp only [run, if_neg ptp]

/-- The filter lets PTP frames of its socket through, and cuts them. -/
theorem run_rawFilter (accepted : PtpFrame event frame) :
    run frame (rawFilter event) 0 0 = 1500 := by
  obtain ⟨type, octet, first, kind⟩ := accepted
  rw [headerLength] at first
  by_cases vlan : tagged frame
  · rw [if_pos vlan] at type first
    rw [run_tagged (by simpa [tagged] using vlan), type, Option.elim_some, if_pos rfl, first]
    exact if_pos kind
  · rw [if_neg vlan] at type first
    rw [run_untagged (by simpa [tagged] using vlan), type, Option.elim_some, if_pos rfl, first]
    exact if_pos kind

theorem run_rawFilter_other (refused : ¬ PtpFrame event frame) :
    run frame (rawFilter event) 0 0 = 0 := by
  by_cases vlan : tagged frame
  · rw [run_tagged (by simpa [tagged] using vlan)]
    rcases type : half frame (offEtype + 4) with _ | inner
    · rfl
    · rw [Option.elim_some]
      split
      next ptp =>
        rcases first : byte frame vlanHdrSize with _ | octet
        · rfl
        · refine if_neg fun kind => refused ⟨?_, octet, ?_, kind⟩
          · rw [if_pos vlan, type, ptp]
          · rw [headerLength, if_pos vlan, first]
      next => rfl
  · rw [run_untagged (by simpa [tagged] using vlan)]
    rcases type : half frame offEtype with _ | inner
    · rfl
    · rw [Option.elim_some]
      split
      next ptp =>
        rcases first : byte frame ethHlen with _ | octet
        · rfl
        · refine if_neg fun kind => refused ⟨?_, octet, ?_, kind⟩
          · rw [if_neg vlan, type, ptp]
          · rw [headerLength, if_neg vlan, first]
      next => rfl

/-- A PTP frame goes on behind its header. -/
theorem PtpFrame.header_inside (accepted : PtpFrame event frame) :
    headerLength frame < frame.length := by
  obtain ⟨_, octet, first, _⟩ := accepted
  exact byte_inside.mp (first ▸ rfl)

end Filter

/-! ## One read -/

section Read

variable {vlan : Bool} {frame octets : List UInt8} {storage : Storage} {a : Arrival}

/-- The type field is read from where the frame was stored. -/
theorem load_half {ptr place number : Nat} (found : half octets place = some number) :
    load .big ⟨ptr + place, 2⟩ (writeOctets ptr octets storage) = number := by
  have inside := half_inside found
  obtain ⟨high, first, rest⟩ := Option.bind_eq_some_iff.mp found
  obtain ⟨low, second, rfl⟩ := Option.map_eq_some_iff.mp rest
  have stored : ∀ {index number : Nat}, byte octets index = some number →
      (writeOctets ptr octets storage (ptr + index)).toNat = number := by
    intro index number here
    have within : index < octets.length := byte_inside.mp (here ▸ rfl)
    rw [writeOctets_inside within]
    simpa [byte, within] using here
  have digits : load .big ⟨ptr + place, 2⟩ (writeOctets ptr octets storage) =
      (writeOctets ptr octets storage (ptr + (place + 1))).toNat +
        256 * ((writeOctets ptr octets storage (ptr + place)).toNat + 256 * 0) := rfl
  rw [digits, stored first, stored second]
  omega

/-- What lies in the buffer when a frame was stored in front of it. -/
theorem octetsAt_behind {base hlen : Nat} (room : hlen ≤ base) (behind : hlen ≤ octets.length) :
    octetsAt base (octets.length - hlen) (writeOctets (base - hlen) octets storage) =
      octets.drop hlen := by
  refine List.ext_getElem (by simp) fun index listed _ => ?_
  have inside : hlen + index < octets.length := by
    rw [octetsAt_length] at listed
    omega
  have place : base + index = base - hlen + (hlen + index) := by omega
  simp only [octetsAt, List.getElem_map, List.getElem_range, List.getElem_drop]
  rw [place, writeOctets_inside inside]
  rfl

/-- How many octets are taken for the header. -/
def expectedLength (vlan : Bool) : Nat := if vlan then vlanHdrSize else ethHlen

/-- Too few octets for the header are an error, and the mode stays. -/
theorem rawRecv_short {queued : List UInt8} (short : queued.length < expectedLength vlan) :
    (rawRecv vlan storage queued).cnt < 0 ∧ (rawRecv vlan storage queued).vlan = vlan := by
  have all : queued.take (messageDataSize + expectedLength vlan) = queued :=
    List.take_of_length_le (by omega)
  have negative : ((queued.take (messageDataSize + expectedLength vlan)).length : Int) -
      expectedLength vlan < 0 := by
    rw [all]
    omega
  have code : rawRecv vlan storage queued = ⟨vlan, _, _⟩ := if_pos negative
  rw [code]
  exact ⟨negative, rfl⟩

/-- Otherwise the type field of the frame sets the mode, and what follows the expected header is in
the buffer. -/
theorem rawRecv_enough {queued : List UInt8} (cut : queued.length ≤ messageDataSize)
    (enough : expectedLength vlan ≤ queued.length) {type : Nat}
    (found : half queued offEtype = some type) :
    (rawRecv vlan storage queued).vlan =
        (if vlan then decide (type ≠ ethP1588) else decide (type = ethP8021q)) ∧
      (rawRecv vlan storage queued).cnt = (queued.drop (expectedLength vlan)).length ∧
      octetsAt msgHeadroom (queued.drop (expectedLength vlan)).length
        (rawRecv vlan storage queued).storage = queued.drop (expectedLength vlan) := by
  have all : queued.take (messageDataSize + expectedLength vlan) = queued :=
    List.take_of_length_le (by omega)
  have room : expectedLength vlan ≤ msgHeadroom := by cases vlan <;> decide
  have positive : ¬ ((queued.take (messageDataSize + expectedLength vlan)).length : Int) -
      expectedLength vlan < 0 := by
    rw [all]
    omega
  have code : rawRecv vlan storage queued = ⟨_, _, _⟩ := if_neg positive
  rw [code]
  dsimp only
  rw [show queued.take (messageDataSize + if vlan then vlanHdrSize else ethHlen) = queued from all]
  refine ⟨?_, ?_, ?_⟩
  · rw [load_half found]
  · rw [List.length_drop]
    exact (Int.natCast_sub enough).symm
  · rw [List.length_drop]
    exact octetsAt_behind room enough

/-- A PTP frame, as far as the filter lets it through. -/
theorem PtpFrame.queued {event : Bool} (accepted : PtpFrame event frame) :
    letThrough (rawFilter event) frame = frame.take messageDataSize ∧
      half (frame.take messageDataSize) offEtype =
        some (if tagged frame then ethP8021q else ethP1588) ∧
      frame.take messageDataSize ≠ [] := by
  have inside := accepted.header_inside
  refine ⟨by rw [letThrough, run_rawFilter accepted]; rfl, ?_, ?_⟩
  · rw [half_take (by decide)]
    by_cases also : tagged frame
    · rw [if_pos also]
      simpa [tagged] using also
    · have type := accepted.type
      rw [if_neg also] at type ⊢
      exact type
  · refine List.ne_nil_of_length_pos ?_
    rw [List.length_take]
    exact Nat.lt_min.mpr ⟨by decide, by omega⟩

theorem rawBuffer_refused (refused : ¬ PtpFrame a.event a.frame) :
    rawBuffer vlan a = none ∧ rawMode vlan a = vlan := by
  have empty : letThrough (rawFilter a.event) a.frame = [] := by
    rw [letThrough, run_rawFilter_other refused, List.take_zero]
  rw [rawBuffer, rawMode, empty]
  exact ⟨rfl, rfl⟩

theorem rawBuffer_short (accepted : PtpFrame a.event a.frame)
    (short : (a.frame.take messageDataSize).length < expectedLength vlan) :
    rawBuffer vlan a = none := by
  obtain ⟨through, _, filled⟩ := accepted.queued
  rw [rawBuffer, through]
  split
  next => rfl
  next => exact if_pos (rawRecv_short short).1

/-- A buffer is exact if cutting the frame and taking off the expected header leaves what follows
the frame's own header. -/
theorem rawBuffer_enough (accepted : PtpFrame a.event a.frame)
    (enough : expectedLength vlan ≤ (a.frame.take messageDataSize).length) :
    ∃ b, rawBuffer vlan a = some b ∧ (b.Exact ↔
      (a.frame.take messageDataSize).drop (expectedLength vlan) =
        a.frame.drop (headerLength a.frame)) := by
  obtain ⟨through, type, filled⟩ := accepted.queued
  let r := rawRecv vlan a.storage (a.frame.take messageDataSize)
  obtain ⟨_, cnt, buffer⟩ : r.vlan = _ ∧ r.cnt = _ ∧ octetsAt msgHeadroom _ r.storage = _ :=
    rawRecv_enough (List.length_take_le _ _) enough type
  refine ⟨⟨a.frame, r.storage, r.cnt.toNat⟩, ?_, ?_⟩
  · rw [rawBuffer, through]
    split
    next empty => exact absurd empty filled
    next => exact if_neg (by rw [cnt]; omega)
  · have length : r.cnt.toNat =
        ((a.frame.take messageDataSize).drop (expectedLength vlan)).length := by
      rw [cnt, Int.toNat_natCast]
    rw [RawBuffer.Exact]
    dsimp only
    rw [length]
    constructor
    · rintro ⟨_, same⟩
      exact buffer.symm.trans same
    · intro same
      exact ⟨congrArg List.length same, buffer.trans same⟩

/-- A frame that is tagged as expected suits if it is not cut. -/
theorem suits_same (same : tagged frame = vlan) : Suits vlan frame ↔ frame.length ≤ 1500 := by
  constructor
  · rintro (⟨_, whole⟩ | ⟨untagged, _⟩ | ⟨also, _, _⟩)
    · exact whole
    · rw [untagged] at same
      cases same
    · rw [also] at same
      cases same
  · exact .expected same

/-- An untagged frame suits the VLAN mode only if it is too short for it. -/
theorem suits_untagged (untagged : tagged frame = false) :
    Suits true frame ↔ frame.length < vlanHdrSize := by
  constructor
  · rintro (⟨same, _⟩ | ⟨_, short⟩)
    · rw [untagged] at same
      cases same
    · exact short
  · exact .short untagged

/-- A tagged frame suits the other mode only if the cut makes up for the wrong header. -/
theorem suits_tagged (also : tagged frame = true) :
    Suits false frame ↔ frame.length = 1504 ∧
      ∀ index, ethHlen ≤ index → index < 1500 → frame[index]? = frame[index + 4]? := by
  constructor
  · rintro (⟨same, _⟩ | _ | ⟨_, length, repeats⟩)
    · rw [also] at same
      cases same
    · exact ⟨length, repeats⟩
  · rintro ⟨length, repeats⟩
    exact .periodic also length repeats

/-- The header that is taken off is the frame's own, and nothing is cut, or the frame is one of the
exceptions. -/
theorem suits_iff (header : headerLength frame < frame.length)
    (enough : expectedLength vlan ≤ (frame.take messageDataSize).length) :
    (frame.take messageDataSize).drop (expectedLength vlan) = frame.drop (headerLength frame) ↔
      Suits vlan frame := by
  rw [List.length_take] at enough
  have lengths : (frame.take messageDataSize).drop (expectedLength vlan) =
      frame.drop (headerLength frame) →
      min 1500 frame.length - expectedLength vlan = frame.length - headerLength frame := by
    intro equal
    simpa [messageDataSize] using congrArg List.length equal
  by_cases same : tagged frame = vlan
  · have own : headerLength frame = expectedLength vlan := by rw [headerLength, same, expectedLength]
    rw [suits_same same]
    constructor
    · intro equal
      have counted := lengths equal
      rw [own] at counted header
      omega
    · intro whole
      have all : frame.take messageDataSize = frame := List.take_of_length_le whole
      rw [all, own]
  · cases vlan with
    | true =>
      have untagged : tagged frame = false := by simpa using same
      rw [suits_untagged untagged]
      simp only [headerLength, untagged, expectedLength, vlanHdrSize, ethHlen] at *
      refine iff_of_false (fun equal => ?_) (by simp at enough; omega)
      have counted := lengths equal
      simp at counted enough header
      omega
    | false =>
      have also : tagged frame = true := by simpa using same
      have kept : ∀ index < 1500, (frame.take messageDataSize)[index]? = frame[index]? :=
        fun index before => List.getElem?_take_of_lt before
      rw [suits_tagged also]
      simp only [headerLength, also, expectedLength, vlanHdrSize, ethHlen] at *
      constructor
      · intro equal
        have counted := lengths equal
        simp at counted enough header
        refine ⟨by omega, fun index low high => ?_⟩
        have here : (frame.take messageDataSize)[index]? = frame[index + 4]? := by
          have own : index = 14 + (index - 14) := by omega
          have other : index + 4 = 18 + (index - 14) := by omega
          rw [other]
          nth_rewrite 1 [own]
          rw [← List.getElem?_drop, ← List.getElem?_drop]
          exact congrArg (·[index - 14]?) equal
        rw [← here, kept index high]
      · rintro ⟨length, repeats⟩
        refine List.ext_getElem? fun index => ?_
        have other : 18 + index = 14 + index + 4 := by omega
        simp only [if_true, Bool.false_eq_true, if_false, List.getElem?_drop]
        rw [other]
        by_cases high : 14 + index < 1500
        · rw [kept _ high]
          exact repeats (14 + index) (by omega) high
        · have cut : (frame.take messageDataSize).length ≤ 14 + index := by
            rw [List.length_take, messageDataSize]
            omega
          rw [List.getElem?_eq_none cut, List.getElem?_eq_none (by omega)]

/-- Where too few octets come for the header, the frame suits. -/
theorem suits_short (header : headerLength frame < frame.length)
    (short : (frame.take messageDataSize).length < expectedLength vlan) : Suits vlan frame := by
  rw [List.length_take, messageDataSize] at short
  have least : ethHlen ≤ headerLength frame := by
    rw [headerLength]
    split <;> decide
  cases vlan with
  | false =>
    have expected : expectedLength false = 14 := rfl
    simp only [ethHlen] at least
    omega
  | true =>
    have expected : expectedLength true = 18 := rfl
    refine .short (Bool.eq_false_iff.mpr fun also => ?_) ?_
    · have own : headerLength frame = 18 := if_pos also
      omega
    · simp only [vlanHdrSize]
      omega

/-- The buffers returned for an arrival are exact if and only if the frame suits the mode. -/
theorem rawBuffer_exact (accepted : PtpFrame a.event a.frame) :
    (∀ b ∈ rawBuffer vlan a, b.Exact) ↔ Suits vlan a.frame := by
  have inside := accepted.header_inside
  by_cases short : (a.frame.take messageDataSize).length < expectedLength vlan
  · rw [rawBuffer_short accepted short]
    exact iff_of_true (by simp) (suits_short inside short)
  · obtain ⟨b, returned, exact⟩ := rawBuffer_enough accepted (Nat.not_lt.mp short)
    rw [returned]
    simp only [Option.mem_some_iff, forall_eq', exact]
    exact suits_iff inside (Nat.not_lt.mp short)

end Read

/-! ## Any interleaving -/

/-- What is asked of an arrival: a frame that the filter lets through suits the mode. -/
def Suited (vlan : Bool) (a : Arrival) : Prop := PtpFrame a.event a.frame → Suits vlan a.frame

/-- Every buffer a transport returns holds exactly what follows the header of its frame, if and only
if every frame that is let through suits the mode it is read in.

Proof: by induction on the frames. What is returned of a frame depends on it and on the mode that
the frame before has left: it is the payload exactly if the frame has a VLAN tag where the mode says
so. -/
theorem raw_payload (vlan : Bool) (arrivals : List Arrival) :
    (∀ b ∈ rawBuffers vlan arrivals, b.Exact) ↔ Runs.Along rawMode Suited vlan arrivals := by
  induction arrivals generalizing vlan with
  | nil => exact iff_of_true (by simp [rawBuffers]) trivial
  | cons a arrivals inductionHypothesis =>
    have here : (∀ b ∈ rawBuffer vlan a, b.Exact) ↔ Suited vlan a := by
      by_cases accepted : PtpFrame a.event a.frame
      · rw [rawBuffer_exact accepted]
        exact ⟨fun suits _ => suits, fun suited => suited accepted⟩
      · rw [(rawBuffer_refused accepted).1]
        exact iff_of_true (by simp) fun also => absurd also accepted
    rw [Runs.Along, ← inductionHypothesis, ← here, rawBuffers]
    simp only [List.mem_append, Option.mem_toList]
    constructor
    · intro all
      exact ⟨fun b returned => all b (Or.inl returned), fun b later => all b (Or.inr later)⟩
    · rintro ⟨first, rest⟩ b (returned | later)
      · exact first b returned
      · exact rest b later

/-- A Sync in a frame with a VLAN header. -/
def taggedSync : List UInt8 :=
  [0x01, 0x1b, 0x19, 0, 0, 0, 2, 0, 0, 0, 0, 1, 0x81, 0, 0, 5, 0x88, 0xf7, 0, 2, 0, 44]

/-- The first frame with a VLAN header is read as if it had none: the message begins with the
header's last four octets. -/
theorem raw_payload_mode :
    (rawBuffers false [⟨true, taggedSync, fun _ => 0⟩]).map
        (fun b => (b.cnt, octetsAt msgHeadroom b.cnt b.storage)) =
      [(8, [0, 5, 0x88, 0xf7, 0, 2, 0, 44])] ∧
    ¬ ∀ b ∈ rawBuffers false [⟨true, taggedSync, fun _ => 0⟩], b.Exact := by
  have miscounted : ¬ ∀ b ∈ rawBuffers false [⟨true, taggedSync, fun _ => 0⟩],
      b.cnt = (b.frame.drop (headerLength b.frame)).length := by decide
  exact ⟨by decide, fun exact => miscounted fun b returned => (exact b returned).1⟩

end LinuxPtp
