import LinuxPtp.Relay
import LinuxPtp.TcForwarding
import LinuxPtp.Runs

/-!
# No octet past the received data

The length of a frame is read from the frame. It stays within the message if the
sender of the message said so, and if the Follow_Up that a transparent clock builds
for a one-step Sync is built on a big-endian host.

For a boundary clock a single message is looked at, and for a transparent clock every run, as its
messages wait in queues. The condition is on the length that a message claims, never on what is
found in the queues.
-/

namespace LinuxPtp

open Octets RefPool Recv Runs

/-- A frame is no longer than its message, and a packet no longer than its buffer. -/
def TcOutput.Within : TcOutput → Prop
  | .send _ _ held octets => load .big PtpHeader.messageLength octets ≤ held
  | .complete _ _ _ held octets => load .big PtpHeader.messageLength octets ≤ held
  | .fetch _ length => length ≤ txtsPacketSize

instance (out : TcOutput) : Decidable out.Within := by
  cases out <;> exact inferInstanceAs (Decidable (_ ≤ _))

/-- A message says that it is no longer than it is. -/
def TcMessage.Within (msg : TcMessage) : Prop :=
  load .big PtpHeader.messageLength msg.data ≤ msg.held ∧ msg.held ≤ txtsPacketSize

/-- All that the clock does to a message keeps it within its frame. -/
theorem within_tame : Tame TcMessage.Within TcOutput.Within where
  hosted _ _ within := within
  stamped _ _ within := within
  corrected msg number within := by
    refine ⟨?_, within.2⟩
    rw [TcMessage.withCorrection, load_store_apart (by decide)]
    exact within.1
  flagged msg within := by
    refine ⟨?_, within.2⟩
    rw [TcMessage.setTwoStep, load_setOctet (by decide)]
    exact within.1
  stepped msg within := by
    refine ⟨?_, within.2⟩
    rw [TcMessage.addStep, load_store_apart (by decide)]
    exact within.1
  sent _ _ within := within.1
  completed _ _ _ within := within.1
  fetched _ _ within := within.1.trans within.2

section Built

variable (c : TcClock) (data : Storage)

theorem followUpOf_length : load .big PtpHeader.messageLength (followUpOf c data) =
    swap c.order 2 FollowUpMsg.size := by
  unfold followUpOf
  dsimp only
  rw [load_copyOctets (by decide), load_copyOctets (by decide), load_setOctet (by decide),
    load_copyOctets (by decide), load_copyOctets (by decide), load_copyOctets (by decide),
    ← swap_load c.order, load_store]
  rfl

/-- The Follow_Up is as long as it says exactly on a big-endian host. -/
theorem followUpOf_within (serial : Nat) (host hwts : Int) :
    TcMessage.Within ⟨followUpOf c data, FollowUpMsg.size, serial, host, hwts⟩ ↔
      c.order = .big := by
  rw [TcMessage.Within, followUpOf_length]
  cases c.order with
  | big => exact ⟨fun _ => rfl, fun _ => ⟨Nat.le_refl 44, (by decide : 44 ≤ 1600)⟩⟩
  | little =>
    constructor
    · intro within
      have long : ¬ swap .little 2 FollowUpMsg.size ≤ FollowUpMsg.size := by decide
      exact absurd within.1 long
    · intro big
      cases big

end Built

section Bounds

variable {c : TcClock}

/-- What an event must be for the frames to stay within bounds: a message that is
forwarded is as long as it says, a one-step Sync is forwarded on a big-endian host
only, and what completes a pair of Sync and Follow_Up is sent. -/
def TcFair (c : TcClock) (s : TcState) : TcEvent → Prop
  | .receive r => TcForwards c s r →
      load .big PtpHeader.messageLength r.wire ≤ r.cnt ∧
      (msgType r.wire = some .sync → oneStep c r.wire = true →
        c.order = .big ∧ ∀ p, r.again.completes p = true) ∧
      Sure r.oracle r.wire
  | _ => True

/-- A step in which messages are fair keeps all queued messages within their frames. -/
theorem fair_step (s : TcState) (event : TcEvent)
    (queued : Queued c TcMessage.Within TcOutput.Within [] s) (fair : TcFair c s event) :
    Queued c TcMessage.Within TcOutput.Within [] (tcStep c s event) := by
  cases event with
  | receive r =>
    refine queued.receive within_tame fun forwards => ?_
    obtain ⟨long, single, sure⟩ := fair forwards
    refine ⟨⟨long, r.fits.trans (by decide)⟩, sure, fun sync converted => ?_⟩
    obtain ⟨big, complete⟩ := single sync converted
    exact ⟨(followUpOf_within c r.wire s.received 0 0).mpr big, complete⟩
  | prune p now => exact queued.prune p now
  | flush p => exact queued.flush p
  | ports state peerDelay =>
    exact queued.frame rfl ⟨rfl, rfl⟩ (fun _ => rfl) rfl queued.outputs

theorem start_queued (M : TcMessage → Prop) (O : TcOutput → Prop) :
    Queued c M O [] TcState.start := by
  have nothing : queue c TcState.start = [] := by simp [queue, TcState.start]
  refine ⟨?_, ?_, fun _ _ => rfl, rfl, ?_, fun _ member => absurd member List.not_mem_nil⟩
  · rw [waiting, nothing]
    exact exact_empty _
  · rw [nothing]
    exact List.Perm.refl _
  · rw [waiting, nothing]
    exact fun _ member => absurd member List.not_mem_nil

/-- The kinds of messages that are sent on as they come in. -/
def sentAtOnce (type : MsgType) : Bool :=
  type ∈ [.sync, .delayReq, .announce, .signaling, .management]

/-- A message is handed to some transport with the length it claims. -/
def Claimed (msg : TcMessage) (s : TcState) : Prop :=
  ∃ p serial octets, TcOutput.send p serial msg.held octets ∈ s.outputs ∧
    load .big PtpHeader.messageLength octets = load .big PtpHeader.messageLength msg.data

/-- An event that goes out by some port goes out with the length it claims. -/
theorem event_claimed {s : TcState} {o : TcOracle} {q cell : Nat}
    (free : ∃ p ∈ c.ports, tcBlocked c s q p (s.message cell).data = false) :
    Claimed (s.message cell) (tcFwdEvent c o q cell s) := by
  obtain ⟨p, sent⟩ := event_sends (o := o) free
  exact ⟨p, _, _, sent, rfl⟩

/-- A two step Sync does, too: the Follow_Up is built later. -/
theorem sync_claimed {s : TcState} {o again : TcOracle} {q cell : Nat} {hands : List Nat}
    {M : TcMessage → Prop} {O : TcOutput → Prop} (queued : Queued c M O hands s)
    (held : cell ∈ hands)
    (free : ∃ p ∈ c.ports, tcBlocked c s q p (s.message cell).data = false) :
    Claimed (s.message cell) (tcFwdSync c o again q cell s) := by
  unfold tcFwdSync
  dsimp only
  split
  · have kept := fun fup => queued.message_take fup (List.mem_append_left (waiting c s) held)
    generalize (⟨followUpOf c (s.message cell).data, FollowUpMsg.size,
      (s.message cell).serial, 0, 0⟩ : TcMessage) = fup
    have marked : (TcState.withMessage { s with msgs := (s.msgs.allocate fup).2 } cell
        TcMessage.setTwoStep).message cell = (s.message cell).setTwoStep := by
      rw [message_change_same, kept]
    obtain ⟨p, sent⟩ := @event_sends c o (TcState.withMessage
      { s with msgs := (s.msgs.allocate fup).2 } cell TcMessage.setTwoStep) q cell (by
        obtain ⟨p, member, unblocked⟩ := free
        refine ⟨p, member, ?_⟩
        rw [marked]
        refine (blocked_congr rfl (setOctet_other (by decide)) ?_).trans unblocked
        exact iff_of_eq (congrArg (· = some MsgType.delayReq) (msgType_flags _ _)))
    rw [marked] at sent
    refine ⟨p, _, _, outputs_folup _ sent, ?_⟩
    rw [TcMessage.setTwoStep, load_setOctet (by decide)]
  · exact event_claimed free

/-- A message that is only passed on goes out with the length it claims. -/
theorem forward_claimed {s : TcState} {o : TcOracle} {q cell : Nat}
    (free : ∃ p ∈ c.ports, tcBlocked c s q p (s.message cell).data = false) :
    Claimed (s.message cell) (tcForward c o q cell s) := by
  unfold tcForward
  dsimp only
  split
  · have sent := @sent_first c o q cell c.ports (s.withMessage cell TcMessage.addStep) (by
      obtain ⟨p, member, unblocked⟩ := free
      refine ⟨p, member, ?_⟩
      have apart : ¬ AnnounceMsg.stepsRemoved.Covers PtpHeader.domainNumber := by decide
      have early : ¬ AnnounceMsg.stepsRemoved.Covers PtpHeader.tsmt := by decide
      rw [message_change_same]
      refine (blocked_congr rfl ?_ ?_).trans unblocked
      · simp only [TcMessage.addStep, store_outside apart]
      · simp only [msgType, TcMessage.addStep, store_outside early])
    rw [message_change_same] at sent
    obtain ⟨p, _, sent⟩ := sent
    refine ⟨p, _, _, sent, ?_⟩
    rw [TcMessage.addStep, load_store_apart (by decide)]
  · obtain ⟨p, _, sent⟩ := @sent_first c o q cell c.ports s free
    exact ⟨p, _, _, sent, rfl⟩

/-- A message that is sent on at once goes out with the length it claims. -/
theorem handle_claimed {s : TcState} {r : TcReception} {cell serial : Nat}
    {M : TcMessage → Prop} {O : TcOutput → Prop} (queued : Queued c M O [cell] s)
    (here : s.message cell = r.message serial) (forwards : TcForwards c s r)
    (once : ∃ type, msgType r.wire = some type ∧ sentAtOnce type = true) :
    Claimed (r.message serial) (tcHandle c r cell s) := by
  have data : (s.message cell).data = r.wire := congrArg TcMessage.data here
  have free : ∃ p ∈ c.ports, tcBlocked c s r.port p (s.message cell).data = false :=
    data.symm ▸ forwards.free
  obtain ⟨type, kind, sent⟩ := once
  obtain ⟨found, same, _, endToEnd⟩ := forwards.kind
  obtain rfl : found = type := Option.some.inj (same.symm.trans kind)
  have switched : tcHandle c r cell s = tcSwitch c r.oracle r.again r.port cell s := by
    rw [tcHandle, if_neg (not_not.mpr forwards.multicast), if_pos forwards.accepted]
  rw [switched, ← here]
  unfold tcSwitch
  rw [data, kind]
  cases found with
  | sync => exact sync_claimed queued List.mem_cons_self free
  | delayReq =>
    have enabled : c.endToEnd = true := endToEnd (by decide)
    simp only [enabled, if_true]
    exact event_claimed free
  | announce => exact forward_claimed free
  | signaling => exact forward_claimed free
  | management => exact forward_claimed free
  | _ => exact absurd sent (by decide)

/-- Every message that goes out at once goes out with the length it claims. -/
theorem receive_claimed {s : TcState} {r : TcReception} {M : TcMessage → Prop}
    {O : TcOutput → Prop} (queued : Queued c M O [] s) (forwards : TcForwards c s r)
    (once : ∃ type, msgType r.wire = some type ∧ sentAtOnce type = true) :
    Claimed (r.message s.received) (tcReceive c r s) := by
  have arrived : Queued c M O [(s.msgs.allocate (r.message s.received)).1]
      { s with msgs := (s.msgs.allocate (r.message s.received)).2, received := s.received + 1 } :=
    (queued.take _).frame rfl ⟨rfl, rfl⟩ (fun _ => rfl) rfl queued.outputs
  exact handle_claimed arrived (content_allocate _)
    ⟨forwards.multicast, forwards.accepted, forwards.kind, forwards.free⟩ once

/-! ## Management messages in a boundary clock -/

section Boundary

variable {order : ByteOrder} {now : Int} {clock : ForwardClock} {p : PortRef} {cnt : Nat}
  {wire : Storage} {starts : List Nat}

/-- The length stated in the header is the same after parsing and turning back. -/
theorem relayed_length (accepted : Accepted wire cnt .management starts) :
    load .big PtpHeader.messageLength
        (relayedBuffer order starts (parsedBuffer order starts wire)) =
      load .big PtpHeader.messageLength wire := by
  refine load_congr .big _ fun index inside => ?_
  have low : 2 ≤ index := inside.1
  have high : index < 4 := inside.2
  rw [relayed_head (suffix_laid (accepted_suffix accepted)) (by omega), if_neg (by omega)]

/-- The frames of a forwarded management message are as long as the message says. -/
theorem forward_lengths {reached : RecvState}
    (parsed : msgPostRecv order now cnt (Message.fresh wire) = .ok () reached)
    (management : msgType wire = some .management) :
    (∀ frame ∈ (clockForwardMgmtMsg order now clock p reached.msg).2, frame.length ≤ cnt) ↔
      ¬ Leaves clock p wire ∨ load .big PtpHeader.messageLength wire ≤ cnt := by
  obtain ⟨starts, accepted, same⟩ := parsed_management parsed management
  rw [same, forward_frames accepted]
  by_cases leaves : Leaves clock p wire
  · rw [if_pos leaves]
    constructor
    · intro every
      obtain ⟨_, out, member, fit⟩ := (leaves_decoded accepted).mpr leaves
      have bound := every _ (List.mem_map_of_mem (List.mem_filter.mpr ⟨member, fit⟩))
      exact Or.inr (relayed_length accepted ▸ bound)
    · intro bound frame present
      obtain ⟨out, _, rfl⟩ := List.mem_map.mp present
      change load .big PtpHeader.messageLength _ ≤ cnt
      rw [relayed_length accepted]
      exact bound.resolve_left (not_not.mpr leaves)
  · simp [leaves]

end Boundary

end Bounds

/-- No octet past the received data is sent. A boundary clock keeps within a
forwarded management message exactly if that is as long as it says. A transparent
clock keeps within bounds in every run of fair steps, and each message that it sends
on at once must be as long as it says.

For transparent clocks the condition is on each step of the run: a message that is kept in a queue,
or goes out later, must be as long as it says when it comes in.

Proof: that the messages in the queues keep within what was received is an invariant; that a message
which goes out at once must be as long as it says is read off the frame that it makes. -/
theorem frames_within (order : ByteOrder) (clock : ForwardClock) (c : TcClock) :
    (∀ now p cnt wire reached, msgPostRecv order now cnt (Message.fresh wire) = .ok () reached →
      msgType wire = some .management →
      ((∀ frame ∈ (clockForwardMgmtMsg order now clock p reached.msg).2, frame.length ≤ cnt) ↔
        ¬ Leaves clock p wire ∨ load .big PtpHeader.messageLength wire ≤ cnt)) ∧
    (∀ events, Along (tcStep c) (TcFair c) TcState.start events →
      ∀ out ∈ (tcRun c TcState.start events).outputs, out.Within) ∧
    ∀ events r, Along (tcStep c) (TcFair c) TcState.start events →
      TcForwards c (tcRun c TcState.start events) r →
      (∃ type, msgType r.wire = some type ∧ sentAtOnce type = true) →
      (∀ out ∈ (tcReceive c r (tcRun c TcState.start events)).outputs, out.Within) →
      load .big PtpHeader.messageLength r.wire ≤ r.cnt := by
  have run : ∀ events, Along (tcStep c) (TcFair c) TcState.start events →
      Queued c TcMessage.Within TcOutput.Within [] (tcRun c TcState.start events) :=
    fun events along => along.keeps (start_queued _ _) fair_step
  refine ⟨fun _ _ _ _ _ => forward_lengths, fun events along => (run events along).outputs, ?_⟩
  intro events r along forwards once within
  obtain ⟨p, serial, octets, sent, claimed⟩ := receive_claimed (run events along) forwards once
  have bound := within _ sent
  rw [TcOutput.Within, claimed] at bound
  exact bound

/-- A response that claims 200 octets of the 48 it has. -/
def longClaim : Storage :=
  bufferOf ([0x0D, 0x02, 0, 200] ++ List.replicate 40 0 ++ [1, 1, 2, 0])

theorem longClaim_accepted : Accepted longClaim 48 .management [] :=
  ⟨by decide, by decide, by decide, .done 48 (by decide)⟩

/-- Everything succeeds, at the supplied transmit time. -/
def smooth (egress : Int) : TcOracle where
  now := 0
  forwards _ := true
  stamps _ := some egress
  completes _ := true
  asap _ := false
  starts _ := true

/-- An end-to-end clock with two ports that always forward. -/
def twoPorts (order : ByteOrder) : TcClock where
  order := order
  endToEnd := true
  nports := 2
  domainNumber := 0
  assumeTwoStep := false
  slaveOnly := false
  tcSpanningTree _ := false
  asymmetry _ := 0
  txTimestampOffset _ := 0
  scaled := id

/-- A Sync that comes in by the first port, with the supplied flags. -/
def syncAt (flags : UInt8) : TcReception where
  port := 1
  wire := bufferOf ([0, 2, 0, 44, 0, 0, flags, 0] ++ List.replicate 36 0)
  cnt := 44
  fits := by decide
  ingress := 5
  oracle := smooth 9
  again := smooth 9

/-- A boundary clock sends what a message claims, and on a little-endian host a
transparent clock sends 11264 octets of the Follow_Up that it builds. -/
theorem longClaim_exceeds :
    (∃ reached, msgPostRecv .little 0 48 (Message.fresh longClaim) = .ok () reached ∧
      msgType longClaim = some .management ∧
      ¬ ∀ frame ∈ (clockForwardMgmtMsg .little 0 boundaryClock (.port 0) reached.msg).2,
        frame.length ≤ 48) ∧
    ¬ ∀ out ∈ (tcRun (twoPorts .little) TcState.start [.receive (syncAt 0)]).outputs,
      out.Within := by
  refine ⟨?_, ?_⟩
  · obtain ⟨last, accesses, _, run⟩ := msgPostRecv_accepted .little 0 (Message.fresh longClaim)
      longClaim_accepted
    refine ⟨_, run, by decide, fun every => ?_⟩
    have exceeds : ¬ (¬ Leaves boundaryClock (.port 0) longClaim ∨
        load .big PtpHeader.messageLength longClaim ≤ 48) := by decide
    exact exceeds ((forward_lengths run (by decide)).mp every)
  · decide

theorem frames_within_twoStep :
    (∀ out ∈ (tcRun (twoPorts .little) TcState.start [.receive (syncAt 2)]).outputs,
      out.Within) ∧
    ∃ reached, msgPostRecv .little 0 48 (Message.fresh longClaim) = .ok () reached ∧
      ((∀ frame ∈ (clockForwardMgmtMsg .little 0 boundaryClock (.port 0) reached.msg).2,
        frame.length ≤ 48) ↔ ¬ Leaves boundaryClock (.port 0) longClaim ∨
          load .big PtpHeader.messageLength longClaim ≤ 48) := by
  constructor
  · refine (frames_within .little boundaryClock (twoPorts .little)).2.1 [.receive (syncAt 2)]
      ⟨fun _ => ?_, trivial⟩
    refine ⟨by decide, fun _ single => absurd single (by decide), fun _ _ => rfl⟩
  · obtain ⟨last, accesses, _, run⟩ := msgPostRecv_accepted .little 0 (Message.fresh longClaim)
      longClaim_accepted
    exact ⟨_, run, (frames_within .little boundaryClock (twoPorts .little)).1 _ _ _ _ _ run (by decide)⟩

end LinuxPtp
