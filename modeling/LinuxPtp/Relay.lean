import LinuxPtp.ForwardImage

/-!
# Forwarded management messages against received ones

Every port that gets a management message gets its image, and the image is the
received message with one hop less exactly where sending undoes parsing: on
everything but shortened paths and most values of a `ScaledNs`.

The converse is proved as well: for every TLV on which sending does not undo parsing, the frame
differs from what was received in some octet.
-/

namespace LinuxPtp

open Octets Recv

section Relay

variable (order : ByteOrder) (now : Int) (c : ForwardClock) (p : PortRef)

/-- The message leaves the clock: it is forwarded at all, and some port is
eligible. -/
def Leaves (data : Storage) : Prop :=
  entersForwarding c p data ∧ ∃ out ∈ egressPorts c, eligible c p out data

instance (data : Storage) : Decidable (Leaves c p data) := inferInstanceAs (Decidable (_ ∧ _))

/-- The received octets with one hop less, sent in full length. -/
structure OneHopLess (cnt : Nat) (wire : Storage) (frame : Frame) : Prop where
  length : frame.length = cnt
  octets : ∀ index < cnt, frame.octets index =
    if index = ManagementMsg.boundaryHops then wire index - 1 else wire index

variable {order now c p} {cnt : Nat} {wire : Storage} {starts : List Nat}

/-- A management message that was parsed successfully is the decoded one. -/
theorem parsed_management {reached : RecvState}
    (parsed : msgPostRecv order now cnt (Message.fresh wire) = .ok () reached)
    (management : msgType wire = some .management) :
    ∃ starts, Accepted wire cnt .management starts ∧
      reached.msg = decoded order now .management starts (Message.fresh wire) := by
  by_cases grammatical : ∃ type starts, Accepted wire cnt type starts
  · obtain ⟨type, starts, accepted⟩ := grammatical
    obtain rfl : type = .management := Option.some.inj (accepted.known.symm.trans management)
    obtain ⟨last, accesses, _, run⟩ := msgPostRecv_accepted order now (Message.fresh wire) accepted
    rw [run] at parsed
    obtain rfl := (EStateM.Result.ok.inj parsed).2
    exact ⟨starts, accepted, rfl⟩
  · obtain ⟨errno, state, run, _⟩ := msgPostRecv_refused order now (Message.fresh wire) grammatical
    rw [run] at parsed
    cases parsed

theorem accepted_suffix (accepted : Accepted wire cnt .management starts) :
    Suffix .big wire cnt 48 starts := accepted.suffix

/-- The decision to forward looks at octets that parsing does not change. -/
theorem leaves_decoded (accepted : Accepted wire cnt .management starts) :
    Leaves c p (decoded order now .management starts (Message.fresh wire)).data ↔
      Leaves c p wire := by
  have kept : ∀ index ∈ [0, 1, 45, 46],
      parsedBuffer order starts wire index = wire index := by
    intro index member
    have early : ∀ index ∈ [0, 1, 45, 46], index < 48 := by decide
    rw [parsed_head (suffix_laid (accepted_suffix accepted)) (early index member),
      headed_uncovered member]
  have hops : parsedBuffer order starts wire ManagementMsg.boundaryHops =
    wire ManagementMsg.boundaryHops := kept 45 (by decide)
  have flags : parsedBuffer order starts wire ManagementMsg.flags =
    wire ManagementMsg.flags := kept 46 (by decide)
  change Leaves c p (parsedBuffer order starts wire) ↔ _
  simp only [Leaves, entersForwarding, eligible, isRequest, hops, flags]

/-- Forwarding from beginning to end: the message is untouched, or it loses a hop,
or it is sent, parsed again and given the hop back. -/
theorem forward_spec (msg : Message)
    (flags : isRequest (preSend order now (withHops (· - 1) msg)).data = isRequest msg.data) :
    clockForwardMgmtMsg order now c p msg =
      if Leaves c p msg.data then
        (withHops (· + 1) (final (msgPostRecv order now
          (load order PtpHeader.messageLength msg.data)
          (preSend order now (withHops (· - 1) msg)))).msg,
        ((egressPorts c).filter fun out => eligible c p out msg.data).map
          (transportSend · (preSend order now (withHops (· - 1) msg)).data))
      else if entersForwarding c p msg.data then (withHops (· - 1) msg, [])
      else (msg, []) := by
  have request : isRequest (withHops (· - 1) msg).data = isRequest msg.data := rfl
  have fit : ∀ out, eligible c p out (withHops (· - 1) msg).data = eligible c p out msg.data :=
    fun out => by rw [eligible, request, eligible]
  have loop := forward_loop order now c p (egressPorts c) (withHops (· - 1) msg)
    (flags.trans request.symm)
  simp only [fit] at loop
  unfold clockForwardMgmtMsg
  by_cases enters : entersForwarding c p msg.data
  · simp only [enters, if_true, Leaves, true_and, loop]
    by_cases some : ∃ out ∈ egressPorts c, eligible c p out msg.data
    · simp only [some, if_true]
    · simp only [some, if_false, Bool.false_eq_true]
  · simp only [enters, Leaves, false_and, Bool.false_eq_true, if_false]

/-- The parsed message is fit for sending. -/
theorem decoded_sendable (accepted : Accepted wire cnt .management starts) :
    (preSend order now (withHops (· - 1)
        (decoded order now .management starts (Message.fresh wire)))).data =
      relayedBuffer order starts (parsedBuffer order starts wire) := by
  have laid := suffix_laid (accepted_suffix accepted)
  have early : parsedBuffer order starts wire PtpHeader.tsmt = wire PtpHeader.tsmt := by
    rw [parsed_head laid (by decide), headed_uncovered (by decide)]
  have known : msgType (parsedBuffer order starts wire) = some .management := by
    rw [msgType, early]
    exact accepted.known
  refine preSend_parsed now (decoded order now .management starts (Message.fresh wire)) known
    (parsedLaid laid) ?_
  refine List.forall₂_map_right_iff.mpr (List.forall₂_same.mpr fun start member => ?_)
  have behind := (laid_member laid start member).1
  have same : readingAt .big (headed order .management wire) start = readingAt .big wire start :=
    readingAt_congr .big fun inner after =>
      headed_beyond order .management wire (behind.trans after)
  have pointed := (received_sendable order (@headedLaid order starts wire laid) member).2.2
  rw [same] at pointed
  exact pointed

theorem isRequest_congr {left right : Storage}
    (same : left ManagementMsg.flags = right ManagementMsg.flags) :
    isRequest left = isRequest right := by
  simp only [isRequest, same]

/-- The image asks for the same action as the message. -/
theorem decoded_flags (accepted : Accepted wire cnt .management starts) :
    isRequest (preSend order now (withHops (· - 1)
        (decoded order now .management starts (Message.fresh wire)))).data =
      isRequest (decoded order now .management starts (Message.fresh wire)).data := by
  have laid := suffix_laid (accepted_suffix accepted)
  have image : relayedBuffer order starts (parsedBuffer order starts wire) ManagementMsg.flags =
      wire ManagementMsg.flags := relayed_head laid (by decide)
  have kept : parsedBuffer order starts wire ManagementMsg.flags = wire ManagementMsg.flags := by
    rw [parsed_head laid (by decide), headed_uncovered (by decide)]
  rw [decoded_sendable accepted]
  exact isRequest_congr (image.trans kept.symm)

/-- The frames of a forwarded message: its image, once for each eligible port. -/
theorem forward_frames (accepted : Accepted wire cnt .management starts) :
    (clockForwardMgmtMsg order now c p
      (decoded order now .management starts (Message.fresh wire))).2 =
    if Leaves c p wire then
      ((egressPorts c).filter fun out => eligible c p out
        (decoded order now .management starts (Message.fresh wire)).data).map
        (transportSend · (relayedBuffer order starts (parsedBuffer order starts wire)))
    else [] := by
  rw [forward_spec _ (decoded_flags accepted)]
  simp only [leaves_decoded accepted, decoded_sendable accepted]
  split
  · rfl
  · split <;> rfl

/-- The image against the received octets, as the transports get it. -/
theorem oneHopLess_iff (accepted : Accepted wire cnt .management starts)
    (whole : load .big PtpHeader.messageLength wire = cnt) (out : PortRef) :
    OneHopLess cnt wire
        (transportSend out (relayedBuffer order starts (parsedBuffer order starts wire))) ↔
      ∀ start ∈ starts, Relayable order wire start := by
  have suffix := accepted_suffix accepted
  rw [← relayed_exact suffix]
  have hops : ∀ index, (if index = 45 then wire 45 - 1 else wire index) =
      if index = ManagementMsg.boundaryHops then wire index - 1 else wire index := by
    intro index
    by_cases here : index = 45
    · subst here
      rfl
    · rw [if_neg here, if_neg (show index ≠ ManagementMsg.boundaryHops from here)]
  constructor
  · intro same index inside
    exact (same.octets index inside).trans (hops index).symm
  · intro same
    refine ⟨?_, fun index inside => (same index inside).trans (hops index)⟩
    rw [← whole]
    refine load_congr .big _ fun index inside => ?_
    have low : 2 ≤ index := inside.1
    have high : index < 4 := inside.2
    have long : 48 ≤ cnt := accepted.long
    rw [same index (by omega), if_neg (by omega)]

/-- Every forwarded frame is the received one with one hop less exactly if nothing
is forwarded, or no TLV is a shortened path and every `ScaledNs` happens to hold
in its least significant part the swapped most significant one.

Proof: all frames that leave are one and the same image, that of the received octets with one hop
less and with each TLV sent again. Outside the TLVs nothing is changed, and inside one the two
conversions cancel but for a path that is not sent whole and for the part of a `ScaledNs` that is
written from another one. -/
theorem forward_exact {reached : RecvState}
    (parsed : msgPostRecv order now cnt (Message.fresh wire) = .ok () reached)
    (management : msgType wire = some .management)
    (whole : load .big PtpHeader.messageLength wire = cnt) :
    (∀ frame ∈ (clockForwardMgmtMsg order now c p reached.msg).2, OneHopLess cnt wire frame) ↔
      ¬ Leaves c p wire ∨ ∀ extra ∈ reached.msg.tlvList, Relayable order wire extra.tlv := by
  obtain ⟨starts, accepted, same⟩ := parsed_management parsed management
  have listed : (∀ extra ∈ reached.msg.tlvList, Relayable order wire extra.tlv) ↔
      ∀ start ∈ starts, Relayable order wire start := by
    rw [← decoded_starts order now .management starts wire, same]
    simp only [List.mem_map, forall_exists_index, and_imp, forall_apply_eq_imp_iff₂]
  rw [listed, same, forward_frames accepted]
  by_cases leaves : Leaves c p wire
  · rw [if_pos leaves]
    constructor
    · intro every
      obtain ⟨_, out, member, fit⟩ := (leaves_decoded accepted).mpr leaves
      refine Or.inr ((oneHopLess_iff accepted whole out).mp (every _ ?_))
      exact List.mem_map_of_mem (List.mem_filter.mpr ⟨member, fit⟩)
    · intro relayable frame present
      obtain ⟨out, _, rfl⟩ := List.mem_map.mp present
      exact (oneHopLess_iff accepted whole out).mpr (relayable.resolve_left (not_not.mpr leaves))
  · simp [leaves]

end Relay

/-- A TIME_STATUS_NP response whose grandmaster phase changed by five nanoseconds. -/
def statusResponse : Storage :=
  bufferOf ([0x0D, 0x02, 0, 104] ++ List.replicate 40 0 ++ [1, 1, 2, 0] ++
    [0, 1, 0, 52, 0xC0, 0] ++ List.replicate 26 0 ++ [0, 0, 0, 0, 0, 0, 0, 0, 0, 5, 0, 0] ++
    List.replicate 12 0)

theorem statusResponse_accepted : Accepted statusResponse 104 .management [48] := by
  have type : (readingAt .big statusResponse 48).type = .management := by decide
  have id : (readingAt .big statusResponse 48).managementId = .timeStatusNp := by decide
  refine ⟨by decide, by decide, by decide,
    .tlv 48 [] ⟨by decide, by decide, ?_⟩ (.done 104 (by decide))⟩
  simp only [Reading.WellSized, Reading.ManagementSized, type, id]
  refine ⟨by decide, fun _ size found => ?_⟩
  obtain rfl := Option.some.inj (show some 50 = some size from found)
  decide

/-- A boundary clock with a slave port and a master port. -/
def boundaryClock : ForwardClock := ⟨[.slave, .master], .master⟩

theorem statusResponse_changed : ∃ reached,
    msgPostRecv .little 0 104 (Message.fresh statusResponse) = .ok () reached ∧
    msgType statusResponse = some .management ∧
    load .big PtpHeader.messageLength statusResponse = 104 ∧
    ¬ ∀ frame ∈ (clockForwardMgmtMsg .little 0 boundaryClock (.port 0) reached.msg).2,
      OneHopLess 104 statusResponse frame := by
  obtain ⟨last, accesses, _, run⟩ := msgPostRecv_accepted .little 0 (Message.fresh statusResponse)
    statusResponse_accepted
  refine ⟨_, run, by decide, by decide, fun every => ?_⟩
  rw [forward_frames statusResponse_accepted, if_pos (by decide)] at every
  have leaves : Leaves boundaryClock (.port 0) statusResponse := by decide
  obtain ⟨_, out, member, fit⟩ := (leaves_decoded statusResponse_accepted).mpr leaves
  have same := every _ (List.mem_map_of_mem (List.mem_filter.mpr ⟨member, fit⟩))
  have relayable := (oneHopLess_iff statusResponse_accepted (by decide) out).mp same 48 (by simp)
  have part := relayable.2 32 (by decide)
  revert part
  decide

theorem forward_exact_statusResponse : ∃ reached,
    msgPostRecv .little 0 104 (Message.fresh statusResponse) = .ok () reached ∧
    ((∀ frame ∈ (clockForwardMgmtMsg .little 0 boundaryClock (.port 0) reached.msg).2,
        OneHopLess 104 statusResponse frame) ↔
      ¬ Leaves boundaryClock (.port 0) statusResponse ∨
        ∀ extra ∈ reached.msg.tlvList, Relayable .little statusResponse extra.tlv) := by
  obtain ⟨last, accesses, _, run⟩ := msgPostRecv_accepted .little 0 (Message.fresh statusResponse)
    statusResponse_accepted
  exact ⟨_, run, forward_exact run (by decide) (by decide)⟩

end LinuxPtp
