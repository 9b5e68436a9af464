import LinuxPtp.TcQueues

/-!
# Forwarding keeps the queues

Each handler of a transparent clock keeps the references exact and the properties
of messages and outputs, provided that what completes a pair of Sync and Follow_Up
is sent: a port that faults then flushes the queue from which the pair is about to
be removed.

The properties of messages and of outputs are parameters. They are instantiated with lengths for
the bounds of frames, and with nothing at all where only the references matter.
-/

namespace LinuxPtp

open Octets RefPool

/-- The message is neither Sync nor Follow_Up, or what completes a pair is sent. -/
def Sure (o : TcOracle) (data : Storage) : Prop :=
  msgType data = some .sync ∨ msgType data = some .followUp → ∀ p, o.completes p = true

section Forwarding

variable {c : TcClock} {M : TcMessage → Prop} {O : TcOutput → Prop} (tame : Tame M O)
  {o : TcOracle} {hands : List Nat} {s : TcState} {p q cell : Nat} {data : Storage}

/-- Something else is done while a message is handled; the message stays as it is. -/
theorem Handling.frame (handling : Handling c M O hands cell data s) {s' : TcState}
    (queued : Queued c M O hands s') (messages : s'.message = s.message) :
    Handling c M O hands cell data s' := by
  refine ⟨queued, handling.held, fun hand member => ?_, ?_⟩
  · rw [messages]
    exact handling.good hand member
  · rw [messages]
    exact handling.same

/-- The message that is handled is a good one. -/
theorem Handling.here (handling : Handling c M O hands cell data s) : M (s.message cell) :=
  handling.good cell handling.held

/-- An allowed frame goes out. -/
theorem Handling.output (handling : Handling c M O hands cell data s) {out : TcOutput}
    (allowed : O out) : Handling c M O hands cell data (s.output out) :=
  handling.frame (handling.queued.output allowed) rfl

/-- A port faults, which only writes its state. -/
theorem Handling.fault (handling : Handling c M O hands cell data s) (o : TcOracle) (p : Nat) :
    Handling c M O hands cell data (tcFault c o p s) :=
  handling.frame (handling.queued.fault o p) (fault_frame o c s p).1

/-- A change of the message in work that keeps the property. -/
theorem Handling.change (handling : Handling c M O hands cell data s)
    (change : TcMessage → TcMessage) (kept : ∀ msg, M msg → M (change msg)) :
    Handling c M O hands cell (change (s.message cell)).data (s.withMessage cell change) := by
  refine ⟨handling.queued.change cell change kept, handling.held, fun hand member => ?_, ?_⟩
  · by_cases same : hand = cell
    · subst same
      rw [message_change_same]
      exact kept _ handling.here
    · rw [message_change_other same]
      exact handling.good hand member
  · rw [message_change_same]

/-- A reference taken for the time of a handler. -/
theorem Queued.take (queued : Queued c M O hands s) (msg : TcMessage) :
    Queued c M O ((s.msgs.allocate msg).1 :: hands) { s with msgs := (s.msgs.allocate msg).2 } := by
  refine ⟨queued.exact.allocate msg, queued.owned, queued.outside, queued.onRails,
    fun cell waits => ?_, queued.outputs⟩
  have kept : (s.msgs.allocate msg).2.content cell = s.msgs.content cell :=
    queued.exact.content_held msg (List.mem_append_right hands waits)
  change M ((s.msgs.allocate msg).2.content cell)
  rw [kept]
  exact queued.messages cell waits

/-- A message that is taken from the pool is what was put into it. -/
theorem message_take_new (s : TcState) (msg : TcMessage) :
    TcState.message { s with msgs := (s.msgs.allocate msg).2 } (s.msgs.allocate msg).1 = msg :=
  content_allocate msg

/-- The other messages are not overwritten: what is held or waits is not free. -/
theorem Queued.message_take (queued : Queued c M O hands s) (msg : TcMessage) {cell : Nat}
    (held : cell ∈ hands ++ waiting c s) :
    TcState.message { s with msgs := (s.msgs.allocate msg).2 } cell = s.message cell :=
  queued.exact.content_held msg held

/-- The message in the first hand is given back, and no other. -/
theorem Queued.release (queued : Queued c M O (cell :: hands) s) :
    Queued c M O hands { s with msgs := s.msgs.put cell } :=
  ⟨queued.exact.put, queued.owned, queued.outside, queued.onRails, queued.messages, queued.outputs⟩

/-- A descriptor is taken off a queue, and its message given back. -/
theorem Handling.dropped (handling : Handling c M O hands cell data s) {txd : TcTxd}
    (member : txd ∈ (s.ports p).transmitted) : Handling c M O hands cell data (tcDrop p s txd) :=
  handling.frame (handling.queued.drop member) rfl

/-- A descriptor is put on a queue, and keeps the message that is handled. -/
theorem Handling.stash (handling : Handling c M O hands cell data s) (inside : p ∈ c.ports)
    (q : Nat) (residence : Int) :
    Handling c M O hands cell data (tcStash q p cell residence s) :=
  handling.frame (handling.queued.stash inside handling.held handling.here q residence)
    (stash_frame q p cell residence s).1

/-- A port at which a message is not blocked is not the one it came in by. -/
theorem unblocked_differ (free : tcBlocked c s q p data = false) : q ≠ p := by
  rintro rfl
  simp [tcBlocked] at free

/-- The correction of a message is the same after sending as before. -/
theorem message_transmit (p cell event : Nat) (interval : Int) (s : TcState) :
    (tcTransmit c o p cell event interval s).message = s.message := by
  have restored : ∀ number (s' : TcState),
      s'.message = (s.withMessage cell (·.withCorrection number)).message →
      (s'.withMessage cell (·.withCorrection
        (load .big PtpHeader.correction (s.message cell).data))).message = s.message := by
    intro number s' same
    funext other
    by_cases here : other = cell
    · subst here
      rw [message_change_same, same, message_change_same]
      simp only [TcMessage.withCorrection, store_store, store_load]
    · rw [message_change_other here, same, message_change_other here]
  unfold tcTransmit
  by_cases success : o.completes p = true
  · simp only [success, if_true]
    exact restored _ _ rfl
  · simp only [success, if_false, Bool.false_eq_true]
    exact restored _ _ (fault_frame o c _ p).1

/-- A Follow_Up that is sent writes no port but the one that fails to send it. -/
theorem ports_transmit (cell event : Nat) (interval : Int) {r : Nat}
    (kept : o.completes p = true ∨ r ≠ p) :
    (tcTransmit c o p cell event interval s).ports r = s.ports r := by
  unfold tcTransmit
  by_cases success : o.completes p = true
  · simp only [success, if_true]
    rfl
  · simp only [success, if_false, Bool.false_eq_true]
    exact (fault_frame o c _ p).2.2 r (kept.resolve_left success)

include tame

/-- The host's time is written beside the message, whose octets stay. -/
theorem Handling.host (handling : Handling c M O hands cell data s) (now : Int) :
    Handling c M O hands cell data (s.withMessage cell (TcMessage.setHost now)) := by
  have changed := handling.change (TcMessage.setHost now) fun msg => tame.hosted msg now
  rw [← handling.same]
  exact changed

/-- The time stamp is written beside the message, whose octets stay. -/
theorem Handling.hwts (handling : Handling c M O hands cell data s) (stamp : Int) :
    Handling c M O hands cell data (s.withMessage cell (TcMessage.setHwts stamp)) := by
  have changed := handling.change (TcMessage.setHwts stamp) fun msg => tame.stamped msg stamp
  rw [← handling.same]
  exact changed

/-- A good Follow_Up goes out with its correction. -/
theorem Queued.transmit (queued : Queued c M O hands s) {fup : Nat} (good : M (s.message fup))
    (p event : Nat) (interval : Int) :
    Queued c M O hands (tcTransmit c o p fup event interval s) := by
  have added : ∀ number, M ((s.withMessage fup (·.withCorrection number)).message fup) := by
    intro number
    rw [message_change_same]
    exact tame.corrected _ number good
  have sent := fun number =>
    (queued.change fup (·.withCorrection number) fun msg => tame.corrected msg number).output
      (tame.completed p ((s.withMessage fup (·.withCorrection number)).message event).serial _
        (added number))
  unfold tcTransmit
  by_cases success : o.completes p = true
  · simp only [success, if_true]
    exact (sent _).change fup _ fun msg => tame.corrected msg _
  · simp only [success, if_false, Bool.false_eq_true]
    exact ((sent _).fault o p).change fup _ fun msg => tame.corrected msg _

/-- The same while another message is handled. -/
theorem Handling.transmit (handling : Handling c M O hands cell data s) {fup : Nat}
    (good : M (s.message fup)) (p event : Nat) (interval : Int) :
    Handling c M O hands cell data (tcTransmit c o p fup event interval s) :=
  handling.frame (handling.queued.transmit tame good p event interval)
    (message_transmit p fup event interval s)

/-- An answer is matched with the requests that wait, and goes out if there is one. -/
theorem Handling.response (handling : Handling c M O hands cell data s) (differ : q ≠ p) :
    Handling c M O hands cell data (tcCompleteResponse c o q p cell s) := by
  unfold tcCompleteResponse
  cases found : (s.ports q).transmitted.find? fun txd =>
    tcMatchDelay c p (s.message cell).data (s.message txd.msg).data txd = .delayReqResp with
  | none => exact handling
  | some txd =>
    have member := List.mem_of_find?_eq_some found
    refine (handling.transmit tame handling.here p _ _).dropped ?_
    rw [ports_transmit _ _ _ (Or.inr differ)]
    exact member

/-- If sending succeeds, the pair is still in the queue when it is removed. -/
theorem Handling.syfup (handling : Handling c M O hands cell data s) (inside : p ∈ c.ports)
    (success : o.completes p = true) (residence : Int) :
    Handling c M O hands cell data (tcCompleteSyfup c o q p cell residence s) := by
  unfold tcCompleteSyfup
  simp only
  split
  · exact handling.stash inside q residence
  · rename_i txd found
    have member := List.mem_of_find?_eq_some found
    split
    · refine (handling.transmit tame handling.here p _ _).dropped ?_
      rw [ports_transmit _ _ _ (Or.inl success)]
      exact member
    · refine (handling.transmit tame (handling.queued.messages _ ?_) p _ _).dropped ?_
      · exact (handling.queued.listed member).2
      · rw [ports_transmit _ _ _ (Or.inl success)]
        exact member

/-- The residence of a message is known: it completes its partner, answers a request, or waits. -/
theorem Handling.complete (handling : Handling c M O hands cell data s) (inside : p ∈ c.ports)
    (differ : q ≠ p) (sure : Sure o data) (residence : Int) :
    Handling c M O hands cell data (tcComplete c o q p cell residence s) := by
  unfold tcComplete
  rw [handling.same]
  cases kind : msgType data with
  | none => exact handling
  | some type =>
    cases type with
    | sync => exact handling.syfup tame inside (sure (Or.inl kind) p) residence
    | followUp => exact handling.syfup tame inside (sure (Or.inr kind) p) residence
    | delayReq => exact handling.stash inside q residence
    | delayResp => exact handling.response tame differ
    | _ => exact handling

/-- An event message is sent at one port. -/
theorem Handling.sendTo (handling : Handling c M O hands cell data s) (p : Nat) :
    Handling c M O hands cell data (tcSendTo c o q cell s p) := by
  have sent : Handling c M O hands cell data (s.send p cell) :=
    handling.output (tame.sent p (s.message cell) handling.here)
  unfold tcSendTo
  split
  · exact handling
  · dsimp only
    split
    · exact sent
    · exact sent.fault o p

/-- Its time stamp is fetched at one port, and the residence computed. -/
theorem Handling.stampOf (handling : Handling c M O hands cell data s) (inside : p ∈ c.ports)
    (sure : Sure o data) (ingress : Int) :
    Handling c M O hands cell data (tcStampOf c o q cell ingress s p) := by
  unfold tcStampOf
  split
  · exact handling
  · rename_i free
    have differ := unblocked_differ (Bool.not_eq_true _ ▸ free)
    have fetched := handling.output (tame.fetched p (s.message cell) handling.here)
    dsimp only
    split
    · exact fetched.fault o p
    · rename_i stamp _
      have stamped := fetched.hwts tame stamp
      split
      · exact stamped.fault o p
      · exact (stamped.hwts tame (stamp + c.txTimestampOffset p)).complete tame inside differ
          sure _

/-- The message is completed at one port, with the residence of its partner. -/
theorem Handling.completeAt (handling : Handling c M O hands cell data s) (inside : p ∈ c.ports)
    (sure : Sure o data) : Handling c M O hands cell data (tcCompleteAt c o q cell s p) := by
  unfold tcCompleteAt
  split
  · exact handling
  · rename_i free
    exact handling.complete tame inside (unblocked_differ (Bool.not_eq_true _ ▸ free)) sure 0

/-! ## All ports -/

/-- An event message is passed on at all ports, and then completed at all of them. -/
theorem Handling.event (handling : Handling c M O hands cell data s) (sure : Sure o data) :
    Handling c M O hands cell data (tcFwdEvent c o q cell s) := by
  have stamped := handling.host tame o.now
  have sent := List.foldlRecOn (motive := Handling c M O hands cell data) c.ports
    (tcSendTo c o q cell) stamped fun s handling p _ => handling.sendTo tame p
  exact List.foldlRecOn (motive := Handling c M O hands cell data) c.ports _ sent
    fun s handling p inside => handling.stampOf tame inside sure _

/-- A general message that completes another is passed on at all ports. -/
theorem Handling.folup (handling : Handling c M O hands cell data s) (sure : Sure o data) :
    Handling c M O hands cell data (tcFwdFolup c o q cell s) := by
  have stamped := handling.host tame o.now
  exact List.foldlRecOn (motive := Handling c M O hands cell data) c.ports _ stamped
    fun s handling p inside => handling.completeAt tame inside sure

/-- Any other message is passed on as it is. -/
theorem Handling.forward (handling : Handling c M O hands cell data s) :
    Queued c M O hands (tcForward c o q cell s) := by
  have stepped : ∃ data', Handling c M O hands cell data'
      (if c.tcSpanningTree q ∧ msgType (s.message cell).data = some .announce then
        s.withMessage cell TcMessage.addStep else s) := by
    split
    · exact ⟨_, handling.change _ tame.stepped⟩
    · exact ⟨_, handling⟩
  obtain ⟨data', stepped⟩ := stepped
  exact (List.foldlRecOn (motive := Handling c M O hands cell data') c.ports _ stepped
    fun s handling p _ => handling.sendTo tame p).queued

omit tame in
/-- The flags are not where the type of a message is. -/
theorem msgType_flags (value : UInt8) (data : Storage) :
    msgType (setOctet PtpHeader.flagField value data) = msgType data := by
  rw [msgType, setOctet_other (by decide)]
  rfl

/-- A one-step Sync is forwarded with the Follow_Up that is built for it. -/
theorem Handling.converted {fup : Nat} {again : TcOracle}
    (handling : Handling c M O (fup :: hands) cell data s) (sure : Sure o data)
    (complete : ∀ p, again.completes p = true) :
    Queued c M O hands (tcFwdConverted c o again q cell fup s) := by
  have flagged := handling.change TcMessage.setTwoStep tame.flagged
  have sameType : msgType (TcMessage.setTwoStep (s.message cell)).data = msgType data := by
    rw [← handling.same]
    exact msgType_flags _ _
  have forwarded := flagged.event tame (o := o) (q := q) (by rw [Sure, sameType]; exact sure)
  have built : Handling c M O (fup :: hands) fup _ _ :=
    ⟨forwarded.queued, List.mem_cons_self, forwarded.good, rfl⟩
  exact (built.folup tame fun _ => complete).queued.release

/-- A Sync is passed on. For a one-step Sync a Follow_Up is made, which must be a good message and
has to complete it at once. -/
theorem Handling.sync (handling : Handling c M O hands cell data s) {again : TcOracle}
    (sure : Sure o data) (built : oneStep c data = true →
      M ⟨followUpOf c data, FollowUpMsg.size, (s.message cell).serial, 0, 0⟩ ∧
        ∀ p, again.completes p = true) :
    Queued c M O hands (tcFwdSync c o again q cell s) := by
  unfold tcFwdSync
  dsimp only
  rw [handling.same]
  by_cases single : oneStep c data = true
  · obtain ⟨good, complete⟩ := built single
    rw [if_pos single]
    refine @Handling.converted c M O tame o _ _ q cell data _ again ⟨handling.queued.take _,
      List.mem_cons_of_mem _ handling.held, fun hand member => ?_, ?_⟩ sure complete
    · rcases List.mem_cons.mp member with rfl | member
      · rw [message_take_new]
        exact good
      · rw [handling.queued.message_take _ (List.mem_append_left _ member)]
        exact handling.good hand member
    · rw [handling.queued.message_take _ (List.mem_append_left _ handling.held)]
      exact handling.same
  · rw [if_neg single]
    exact (handling.event tame sure).queued

/-- A message is passed on by its type. -/
theorem Handling.switch (handling : Handling c M O hands cell data s) {again : TcOracle}
    (sure : Sure o data) (built : msgType data = some .sync → oneStep c data = true →
      M ⟨followUpOf c data, FollowUpMsg.size, (s.message cell).serial, 0, 0⟩ ∧
        ∀ p, again.completes p = true) :
    Queued c M O hands (tcSwitch c o again q cell s) := by
  unfold tcSwitch
  rw [handling.same]
  cases kind : msgType data with
  | none => exact handling.queued
  | some type =>
    cases type with
    | sync => exact handling.sync tame sure (built kind)
    | delayReq =>
      dsimp only
      split
      · exact (handling.event tame sure).queued
      · exact handling.queued
    | followUp => exact (handling.folup tame sure).queued
    | delayResp =>
      dsimp only
      split
      · exact (handling.folup tame sure).queued
      · exact handling.queued
    | announce => exact handling.forward tame
    | signaling => exact handling.forward tame
    | management => exact handling.forward tame
    | _ => exact handling.queued

omit tame

/-! ## Messages that no port forwards -/

/-- Steps that do nothing. -/
theorem foldl_idle {α β : Type} (step : α → β → α) {state : α} (list : List β)
    (idle : ∀ item ∈ list, step state item = state) : list.foldl step state = state := by
  induction list with
  | nil => rfl
  | cons item rest inductionHypothesis =>
    rw [List.foldl_cons, idle item List.mem_cons_self]
    exact inductionHypothesis fun item member => idle item (List.mem_cons_of_mem _ member)

/-- Blocking looks at the states of the ports, the domain, and for a Delay_Req. -/
theorem blocked_congr {s' : TcState} {data' : Storage} (ports : s'.ports = s.ports)
    (domain : data' PtpHeader.domainNumber = data PtpHeader.domainNumber)
    (type : msgType data' = some .delayReq ↔ msgType data = some .delayReq) :
    tcBlocked c s' q p data' = tcBlocked c s q p data := by
  simp only [tcBlocked, ports, domain, type]

/-- Where every port is blocked, handling an event message notes the time only. -/
theorem event_blocked (blocked : ∀ p ∈ c.ports, tcBlocked c s q p (s.message cell).data = true) :
    tcFwdEvent c o q cell s = s.withMessage cell (TcMessage.setHost o.now) := by
  have still : ∀ p ∈ c.ports, tcBlocked c (s.withMessage cell (TcMessage.setHost o.now)) q p
      ((s.withMessage cell (TcMessage.setHost o.now)).message cell).data = true := by
    intro p member
    rw [message_change_same]
    exact blocked p member
  have sends := foldl_idle (tcSendTo c o q cell) c.ports fun p member => by
    rw [tcSendTo, if_pos (still p member)]
  have stamps := foldl_idle (tcStampOf c o q cell (s.message cell).hwts) c.ports
    fun p member => by rw [tcStampOf, if_pos (still p member)]
  unfold tcFwdEvent
  dsimp only
  rw [sends, stamps]

/-- Where all ports are blocked, a Follow_Up only gets the host's time. -/
theorem folup_blocked (blocked : ∀ p ∈ c.ports, tcBlocked c s q p (s.message cell).data = true) :
    tcFwdFolup c o q cell s = s.withMessage cell (TcMessage.setHost o.now) := by
  refine foldl_idle (tcCompleteAt c o q cell) c.ports fun p member => ?_
  have still : tcBlocked c (s.withMessage cell (TcMessage.setHost o.now)) q p
      ((s.withMessage cell (TcMessage.setHost o.now)).message cell).data = true := by
    rw [message_change_same]
    exact blocked p member
  rw [tcCompleteAt, if_pos still]

/-- A Follow_Up that is made is of the domain of its Sync. -/
theorem followUpOf_domain (c : TcClock) (data : Storage) :
    followUpOf c data PtpHeader.domainNumber = data PtpHeader.domainNumber := by
  simp [followUpOf, copyOctets, setOctet, PtpHeader.domainNumber, PtpHeader.sourcePortIdentity,
    PtpHeader.sequenceId, PtpHeader.control, PtpHeader.logMessageInterval, PtpHeader.size,
    Timestamp.size]

/-- What is made is a Follow_Up. -/
theorem followUpOf_type (c : TcClock) (data : Storage) : msgType (followUpOf c data) = some .followUp := by
  have octet : followUpOf c data PtpHeader.tsmt = 8 ||| (data PtpHeader.tsmt &&& 0xf0) := by
    simp [followUpOf, copyOctets, setOctet, PtpHeader.tsmt, PtpHeader.ver, PtpHeader.domainNumber,
      PtpHeader.sourcePortIdentity, PtpHeader.sequenceId, PtpHeader.control,
      PtpHeader.logMessageInterval, PtpHeader.size, Timestamp.size, store_outside,
      PtpHeader.messageLength, Field.Covers, Field.stop]
  have nibble : lowNibble (8 ||| (data PtpHeader.tsmt &&& 0xf0)).toNat = 8 := by
    have masked : ((data PtpHeader.tsmt).toNat &&& 240) % 2 ^ 4 = 0 := by
      rw [Nat.and_mod_two_pow]
      simp
    rw [lowNibble, UInt8.toNat_or, UInt8.toNat_and]
    change (8 ||| ((data PtpHeader.tsmt).toNat &&& 240)) % 2 ^ 4 = 8
    rw [Nat.or_mod_two_pow, masked]
    rfl
  rw [msgType, octet, nibble]
  rfl

/-- Where all ports are blocked, a message is passed on nowhere. -/
theorem forward_blocked (tame : Tame M O) (queued : Queued c M O hands s) (cell : Nat)
    (blocked : ∀ p ∈ c.ports, tcBlocked c s q p (s.message cell).data = true) :
    Queued c M O hands (tcForward c o q cell s) := by
  have idle : ∀ s' : TcState, s'.ports = s.ports →
      (s'.message cell).data PtpHeader.domainNumber =
        (s.message cell).data PtpHeader.domainNumber →
      msgType (s'.message cell).data = msgType (s.message cell).data →
      c.ports.foldl (tcSendTo c o q cell) s' = s' := by
    intro s' ports domain type
    refine foldl_idle _ _ fun p member => ?_
    have still : tcBlocked c s' q p (s'.message cell).data = true :=
      (blocked_congr ports domain (by rw [type])).trans (blocked p member)
    rw [tcSendTo, if_pos still]
  unfold tcForward
  dsimp only
  by_cases announce : c.tcSpanningTree q ∧ msgType (s.message cell).data = some .announce
  · rw [if_pos announce, idle (s.withMessage cell TcMessage.addStep) rfl]
    · exact queued.change cell _ tame.stepped
    · rw [message_change_same]
      have outside : ¬ AnnounceMsg.stepsRemoved.Covers PtpHeader.domainNumber := by decide
      simp only [TcMessage.addStep, store_outside outside]
    · rw [message_change_same]
      have outside : ¬ AnnounceMsg.stepsRemoved.Covers PtpHeader.tsmt := by decide
      simp only [msgType, TcMessage.addStep, store_outside outside]
  · rw [if_neg announce, idle s rfl rfl rfl]
    exact queued

/-- Where all ports are blocked, a one-step Sync and the Follow_Up that is made for it go nowhere
either: both are of one domain. -/
theorem converted_blocked (tame : Tame M O) {fup : Nat} {again : TcOracle}
    (queued : Queued c M O (fup :: hands) s) (differ : fup ≠ cell)
    (domain : (s.message fup).data PtpHeader.domainNumber =
      (s.message cell).data PtpHeader.domainNumber)
    (type : msgType (s.message fup).data = some .followUp)
    (sync : msgType (s.message cell).data = some .sync)
    (blocked : ∀ p ∈ c.ports, tcBlocked c s q p (s.message cell).data = true) :
    Queued c M O hands (tcFwdConverted c o again q cell fup s) := by
  unfold tcFwdConverted
  dsimp only
  rw [event_blocked fun p member => ?_, folup_blocked fun p member => ?_]
  · refine Queued.release (Queued.change (Queued.change (Queued.change queued cell _ ?_) cell _ ?_)
      fup _ ?_)
    · exact tame.flagged
    · exact fun msg => tame.hosted msg _
    · exact fun msg => tame.hosted msg _
  · rw [message_change_other differ, message_change_other differ]
    refine (blocked_congr rfl domain ?_).trans (blocked p member)
    simp [type, sync]
  · rw [message_change_same]
    refine (blocked_congr rfl (setOctet_other (by decide)) ?_).trans (blocked p member)
    exact iff_of_eq (congrArg (· = some MsgType.delayReq) (msgType_flags _ _))

/-- So a Sync that is blocked everywhere is handled without any condition on it. -/
theorem sync_blocked (tame : Tame M O) {again : TcOracle} (queued : Queued c M O hands s)
    (held : cell ∈ hands) (sync : msgType (s.message cell).data = some .sync)
    (blocked : ∀ p ∈ c.ports, tcBlocked c s q p (s.message cell).data = true) :
    Queued c M O hands (tcFwdSync c o again q cell s) := by
  unfold tcFwdSync
  dsimp only
  split
  · have kept := fun fup => queued.message_take fup (List.mem_append_left (waiting c s) held)
    refine converted_blocked tame (queued.take _) ?_ ?_ ?_ ?_ ?_
    · intro same
      exact queued.exact.fresh _ (List.mem_append_left _ (same ▸ held))
    · rw [message_take_new, kept]
      exact followUpOf_domain c _
    · rw [message_take_new]
      exact followUpOf_type c _
    · rw [kept, sync]
    · intro p member
      rw [kept]
      exact blocked p member
  · rw [event_blocked blocked]
    exact queued.change cell _ fun msg => tame.hosted msg _

/-- Where every port is blocked, nothing waits that did not wait before. -/
theorem switch_blocked (tame : Tame M O) {again : TcOracle} (queued : Queued c M O hands s)
    (held : cell ∈ hands)
    (blocked : ∀ p ∈ c.ports, tcBlocked c s q p (s.message cell).data = true) :
    Queued c M O hands (tcSwitch c o again q cell s) := by
  have noted : Queued c M O hands (s.withMessage cell (TcMessage.setHost o.now)) :=
    queued.change cell _ fun msg => tame.hosted msg _
  have event : Queued c M O hands (tcFwdEvent c o q cell s) := by rwa [event_blocked blocked]
  have folup : Queued c M O hands (tcFwdFolup c o q cell s) := by rwa [folup_blocked blocked]
  have forward := forward_blocked (o := o) tame queued cell blocked
  unfold tcSwitch
  split
  · rename_i kind
    exact sync_blocked tame queued held kind blocked
  · split
    · exact event
    · exact queued
  · exact folup
  · split
    · exact folup
    · exact queued
  · exact forward
  · exact forward
  · exact forward
  · exact queued

/-- Messages of other kinds are for the port itself. -/
theorem switch_ignored {again : TcOracle} (kind : ¬ ∃ type, msgType (s.message cell).data =
    some type ∧ type ∉ [.pdelayReq, .pdelayResp, .pdelayRespFollowUp] ∧
    (type ∈ [.delayReq, .delayResp] → c.endToEnd = true)) :
    tcSwitch c o again q cell s = s := by
  unfold tcSwitch
  cases type : msgType (s.message cell).data with
  | none => rfl
  | some found =>
    cases found with
    | delayReq =>
      refine if_neg fun endToEnd => kind ⟨_, type, by decide, fun _ => endToEnd⟩
    | delayResp =>
      refine if_neg fun endToEnd => kind ⟨_, type, by decide, fun _ => endToEnd⟩
    | pdelayReq => rfl
    | pdelayResp => rfl
    | pdelayRespFollowUp => rfl
    | _ => exact absurd ⟨_, type, by decide, fun listed => absurd listed (by decide)⟩ kind

end Forwarding

/-! ## Receptions and runs -/

section Runs

variable (c : TcClock) (s : TcState) (r : TcReception)

/-- A transparent clock forwards the message: it is accepted and of a kind that the
clock forwards, and some port is free for it. -/
structure TcForwards : Prop where
  multicast : r.wire PtpHeader.flagField &&& unicast = 0
  accepted : tcDuplicates c.order r = true
  kind : ∃ type, msgType r.wire = some type ∧
    type ∉ [.pdelayReq, .pdelayResp, .pdelayRespFollowUp] ∧
    (type ∈ [.delayReq, .delayResp] → c.endToEnd = true)
  free : ∃ p ∈ c.ports, tcBlocked c s r.port p r.wire = false

/-- The Follow_Up for a one-step Sync. -/
def TcReception.built (serial : Nat) : TcMessage :=
  ⟨followUpOf c r.wire, FollowUpMsg.size, serial, 0, 0⟩

variable {c s r} {M : TcMessage → Prop} {O : TcOutput → Prop}

/-- A message that is not forwarded leaves the queues as they were. -/
theorem Queued.handle (tame : Tame M O) {cell serial : Nat} (queued : Queued c M O [cell] s)
    (here : s.message cell = r.message serial)
    (ready : TcForwards c s r → M (r.message serial) ∧ Sure r.oracle r.wire ∧
      (msgType r.wire = some .sync → oneStep c r.wire = true →
        M (r.built c serial) ∧ ∀ p, r.again.completes p = true)) :
    Queued c M O [cell] (tcHandle c r cell s) := by
  have data : (s.message cell).data = r.wire := congrArg TcMessage.data here
  have number : (s.message cell).serial = serial := congrArg TcMessage.serial here
  unfold tcHandle
  split
  · exact queued
  · rename_i multicast
    split
    · rename_i accepted
      by_cases free : ∃ p ∈ c.ports, tcBlocked c s r.port p r.wire = false
      · by_cases kind : ∃ type, msgType r.wire = some type ∧
            type ∉ [.pdelayReq, .pdelayResp, .pdelayRespFollowUp] ∧
            (type ∈ [.delayReq, .delayResp] → c.endToEnd = true)
        · obtain ⟨good, sure, built⟩ := ready ⟨not_not.mp multicast, accepted, kind, free⟩
          have handling : Handling c M O [cell] cell r.wire s := by
            refine ⟨queued, List.mem_cons_self, fun hand member => ?_, data⟩
            rw [List.mem_singleton.mp member, here]
            exact good
          refine handling.switch tame sure ?_
          rw [number]
          exact built
        · rw [switch_ignored (data ▸ kind)]
          exact queued
      · refine switch_blocked tame queued List.mem_cons_self fun p member => ?_
        rw [data]
        by_contra unblocked
        exact free ⟨p, member, Bool.not_eq_true _ ▸ unblocked⟩
    · exact queued

/-- A message is received and handled. If all ports block it nothing is asked of it; otherwise it
has to be a good one, as the Follow_Up that may be made for it. -/
theorem Queued.receive (tame : Tame M O) (queued : Queued c M O [] s)
    (ready : TcForwards c s r → M (r.message s.received) ∧ Sure r.oracle r.wire ∧
      (msgType r.wire = some .sync → oneStep c r.wire = true →
        M (r.built c s.received) ∧ ∀ p, r.again.completes p = true)) :
    Queued c M O [] (tcReceive c r s) := by
  have taken := queued.take (r.message s.received)
  have arrived : Queued c M O [(s.msgs.allocate (r.message s.received)).1]
      { s with msgs := (s.msgs.allocate (r.message s.received)).2, received := s.received + 1 } :=
    taken.frame rfl ⟨rfl, rfl⟩ (fun _ => rfl) rfl taken.outputs
  refine Queued.release (Queued.handle tame arrived (content_allocate _) fun forwards => ?_)
  exact ready ⟨forwards.multicast, forwards.accepted, forwards.kind, forwards.free⟩

end Runs

/-! ## The log of outputs -/

section Log

variable {c : TcClock} {o : TcOracle} {s : TcState} {p q cell : Nat}

/-- What was sent stays in the log. -/
theorem outputs_transmit (p cell event : Nat) (interval : Int) (s : TcState) :
    s.outputs ⊆ (tcTransmit c o p cell event interval s).outputs := by
  unfold tcTransmit
  by_cases success : o.completes p = true
  · simp only [success, if_true]
    exact List.subset_append_left _ _
  · simp only [success, if_false, Bool.false_eq_true]
    change _ ⊆ (tcFault c o p _).outputs
    rw [(fault_frame o c _ p).2.1]
    exact List.subset_append_left _ _

/-- What has gone out stays out when a message is completed. -/
theorem outputs_complete (q p cell : Nat) (residence : Int) (s : TcState) :
    s.outputs ⊆ (tcComplete c o q p cell residence s).outputs := by
  have syfup : s.outputs ⊆ (tcCompleteSyfup c o q p cell residence s).outputs := by
    unfold tcCompleteSyfup
    dsimp only
    split
    · rw [(stash_frame q p cell residence s).2.1]
      exact List.Subset.refl _
    · split <;> exact outputs_transmit _ _ _ _ _
  have response : s.outputs ⊆ (tcCompleteResponse c o q p cell s).outputs := by
    unfold tcCompleteResponse
    split
    · exact List.Subset.refl _
    · exact outputs_transmit _ _ _ _ _
  unfold tcComplete
  split
  · exact syfup
  · exact syfup
  · rw [tcCompleteRequest, (stash_frame q p cell residence s).2.1]
    exact List.Subset.refl _
  · exact response
  · exact List.Subset.refl _

/-- What has gone out stays out when another message is sent. -/
theorem outputs_sendTo (s : TcState) (p : Nat) :
    s.outputs ⊆ (tcSendTo c o q cell s p).outputs := by
  unfold tcSendTo
  split
  · exact List.Subset.refl _
  · dsimp only
    split
    · exact List.subset_append_left _ _
    · rw [(fault_frame o c _ p).2.1]
      exact List.subset_append_left _ _

/-- What has gone out stays out when a time stamp is fetched. -/
theorem outputs_stampOf (ingress : Int) (s : TcState) (p : Nat) :
    s.outputs ⊆ (tcStampOf c o q cell ingress s p).outputs := by
  unfold tcStampOf
  split
  · exact List.Subset.refl _
  · dsimp only
    split
    · rw [(fault_frame o c _ p).2.1]
      exact List.subset_append_left _ _
    · split
      · rw [(fault_frame o c _ p).2.1]
        exact List.subset_append_left _ _
      · refine List.Subset.trans ?_ (outputs_complete _ _ _ _ _)
        exact List.subset_append_left _ _

/-- What has gone out stays out when another message is completed. -/
theorem outputs_completeAt (s : TcState) (p : Nat) :
    s.outputs ⊆ (tcCompleteAt c o q cell s p).outputs := by
  unfold tcCompleteAt
  split
  · exact List.Subset.refl _
  · exact outputs_complete _ _ _ _ _

/-- The same for all ports in turn. -/
theorem outputs_foldl {step : TcState → Nat → TcState}
    (grows : ∀ s p, s.outputs ⊆ (step s p).outputs) (ports : List Nat) (s : TcState) :
    s.outputs ⊆ (ports.foldl step s).outputs := by
  induction ports generalizing s with
  | nil => exact List.Subset.refl _
  | cons p rest inductionHypothesis =>
    exact List.Subset.trans (grows s p) (inductionHypothesis _)

/-- The first port that is free for a message gets it. -/
theorem sent_first (ports : List Nat) (s : TcState)
    (free : ∃ p ∈ ports, tcBlocked c s q p (s.message cell).data = false) : ∃ p ∈ ports,
    TcOutput.send p (s.message cell).serial (s.message cell).held (s.message cell).data ∈
      (ports.foldl (tcSendTo c o q cell) s).outputs := by
  induction ports with
  | nil =>
    obtain ⟨p, member, _⟩ := free
    cases member
  | cons first rest inductionHypothesis =>
    rw [List.foldl_cons]
    cases here : tcBlocked c s q first (s.message cell).data with
    | false =>
      refine ⟨first, List.mem_cons_self, outputs_foldl outputs_sendTo rest _ ?_⟩
      unfold tcSendTo
      simp only [here, Bool.false_eq_true, if_false]
      split
      · exact List.mem_append_right _ List.mem_cons_self
      · rw [(fault_frame o c _ first).2.1]
        exact List.mem_append_right _ List.mem_cons_self
    | true =>
      have idle : tcSendTo c o q cell s first = s := by rw [tcSendTo, if_pos here]
      rw [idle]
      obtain ⟨p, member, sent⟩ := inductionHypothesis (by
        obtain ⟨p, member, unblocked⟩ := free
        rcases List.mem_cons.mp member with rfl | later
        · rw [here] at unblocked
          cases unblocked
        · exact ⟨p, later, unblocked⟩)
      exact ⟨p, List.mem_cons_of_mem _ member, sent⟩

/-- An event message goes out by some port if one is free for it. -/
theorem event_sends (free : ∃ p ∈ c.ports, tcBlocked c s q p (s.message cell).data = false) :
    ∃ p, TcOutput.send p (s.message cell).serial (s.message cell).held (s.message cell).data ∈
      (tcFwdEvent c o q cell s).outputs := by
  have sent := @sent_first c o q cell c.ports (s.withMessage cell (TcMessage.setHost o.now)) (by
    rw [message_change_same]
    exact free)
  rw [message_change_same] at sent
  obtain ⟨p, _, sent⟩ := sent
  exact ⟨p, outputs_foldl (outputs_stampOf (s.message cell).hwts) c.ports _ sent⟩

/-- What has gone out stays out when a Follow_Up is passed on. -/
theorem outputs_folup (s : TcState) : s.outputs ⊆ (tcFwdFolup c o q cell s).outputs :=
  outputs_foldl outputs_completeAt c.ports (s.withMessage cell (TcMessage.setHost o.now))

end Log

end LinuxPtp
