import LinuxPtp.CalmSteps
import LinuxPtp.RecordedAnnounces

/-!
# The exchanges behind the time stamps

The time stamp processor combines four time stamps. Two of them come from a Sync, with its
Follow_Up if it has one, and two from a request that a port sent and from what came in answer to it.
In every run all of them are those of messages of the run that belong together: no time stamp is
made up, taken from a message that was ignored, or paired with the wrong request.

What came and what was sent are two predicates that only grow along a run, so that all that is
known of kept messages and of time stamps stays known. The invariant is shown for calm steps at
once and for each of the others alone.
-/

namespace LinuxPtp

/-! ## Time stamps and messages -/

section Sources

variable (c : Clock) (sent came : Nat → PtpMessage → Prop)

/-- The time stamps of a Sync that came, and of its Follow_Up if it has one. -/
def Downward (tsp : Tsproc) : Prop :=
  ∃ p sync, came p sync ∧ sync.type = .sync ∧ tsp.t2 = sync.hwts ∧
    tsp.t2From = some sync.sourcePortIdentity ∧
    (c.oneStep sync ∧ tsp.t1From = some sync.sourcePortIdentity ∧ tsp.t1 = sync.pdu +
        correctionToTmv (sync.correction + (c.setup p).asymmetry) ∨
      c.oneStep sync = false ∧ ∃ fup, came p fup ∧ fup.type = .followUp ∧
        fup.sequenceId = sync.sequenceId ∧ tsp.t1From = some fup.sourcePortIdentity ∧
        tsp.t1 = fup.pdu + (correctionToTmv (sync.correction + (c.setup p).asymmetry) +
          correctionToTmv fup.correction))

/-- The answer of a peer, with its follow-up if it has one. -/
def Answered (p : Nat) (rsp : PtpMessage) (t4 : Int) : Prop :=
  c.oneStep rsp ∧ t4 = 0 ∨
    c.oneStep rsp = false ∧ t4 = rsp.pdu ∧ ∃ fup, came p fup ∧ fup.type = .pdelayRespFollowUp ∧
      fup.requestingPortIdentity = c.portIdentity p ∧ fup.sequenceId = rsp.sequenceId ∧
      fup.sourcePortIdentity = rsp.sourcePortIdentity

/-- The time stamps of a request that was sent and of what came in answer to it. -/
def Upward (tsp : Tsproc) : Prop :=
  ∃ p req rsp, sent p req ∧ came p rsp ∧ rsp.requestingPortIdentity = c.portIdentity p ∧
    rsp.sequenceId = req.sequenceId ∧ tsp.t3 = req.hwts ∧
    tsp.t4From = some rsp.sourcePortIdentity ∧
    (req.type = .delayReq ∧ rsp.type = .delayResp ∧
        tsp.t4 = rsp.pdu - correctionToTmv rsp.correction ∨
      req.type = .pdelayReq ∧ rsp.type = .pdelayResp ∧ Answered c came p rsp tsp.t4)

/-- What a port keeps of a peer delay measurement. -/
def Slotted (p : Nat) (m : PtpMessage) : PeerSlot → Prop
  | .req => sent p m ∧ m.type = .pdelayReq
  | .resp => came p m ∧ m.type = .pdelayResp
  | .fup => came p m ∧ m.type = .pdelayRespFollowUp

/-- The Sync or Follow_Up that a port keeps came, and the asymmetry was added to a Sync. -/
def Awaits (p : Nat) (port : Port) : Prop :=
  port.syfu = .empty ∨ ∃ last, port.lastSyncfup = some last ∧
    (port.syfu = .haveSync ∧ (∃ m, came p m ∧ m.type = .sync ∧ c.oneStep m = false ∧
        last.msg = { m with correction := m.correction + (c.setup p).asymmetry }) ∨
      port.syfu = .haveFup ∧ came p last.msg ∧ last.msg.type = .followUp)

/-- What the ports keep was sent and came, and so were the messages behind the time stamps. -/
structure Sourced (s : ClockState) : Prop where
  requests : ∀ p, ∀ m ∈ (s.ports p).delayReq, sent p m.msg ∧ m.msg.type = .delayReq
  peers : ∀ p slot m, (s.ports p).peerDelay slot = some m → Slotted sent came p m.msg slot
  last : ∀ p, Awaits c came p (s.ports p)
  down : s.tsproc.t1 = 0 ∧ s.tsproc.t2 = 0 ∨ Downward c came s.tsproc
  up : s.tsproc.t3 = 0 ∧ s.tsproc.t4 = 0 ∨ Upward c sent came s.tsproc

end Sources

section Handlers

variable {c : Clock} {a : Answers} {s t : ClockState} {p : Nat}
  {sent came asked more : Nat → PtpMessage → Prop}

/-- Times of messages that came belong to a longer run as well. -/
theorem Downward.mono {tsp : Tsproc} (down : Downward c came tsp)
    (wider : ∀ p m, came p m → more p m) : Downward c more tsp := by
  obtain ⟨p, sync, arrived, type, t2, t2From, kinds⟩ := down
  refine ⟨p, sync, wider p sync arrived, type, t2, t2From, kinds.imp id ?_⟩
  rintro ⟨twoStep, fup, second, rest⟩
  exact ⟨twoStep, fup, wider p fup second, rest⟩

/-- Times of requests that were sent, and of their answers, belong to a longer run as well. -/
theorem Upward.mono {tsp : Tsproc} (up : Upward c sent came tsp)
    (longer : ∀ p m, sent p m → asked p m) (wider : ∀ p m, came p m → more p m) :
    Upward c asked more tsp := by
  obtain ⟨p, req, rsp, began, arrived, addressed, number, t3, t4From, kinds⟩ := up
  refine ⟨p, req, rsp, longer p req began, wider p rsp arrived, addressed, number, t3, t4From,
    kinds.imp id ?_⟩
  rintro ⟨first, second, answered⟩
  refine ⟨first, second, answered.imp id ?_⟩
  rintro ⟨twoStep, t4, fup, third, rest⟩
  exact ⟨twoStep, t4, fup, wider p fup third, rest⟩

/-- A message in a slot came in a longer run as well. -/
theorem Slotted.mono {m : PtpMessage} {slot : PeerSlot} (slotted : Slotted sent came p m slot)
    (longer : ∀ p m, sent p m → asked p m) (wider : ∀ p m, came p m → more p m) :
    Slotted asked more p m slot := by
  cases slot with
  | req => exact ⟨longer p m slotted.1, slotted.2⟩
  | resp => exact ⟨wider p m slotted.1, slotted.2⟩
  | fup => exact ⟨wider p m slotted.1, slotted.2⟩

/-- The half of a pair came in a longer run as well. -/
theorem Awaits.mono {port : Port} (awaits : Awaits c came p port)
    (wider : ∀ p m, came p m → more p m) : Awaits c more p port := by
  rcases awaits with empty | ⟨last, there, ⟨syfu, m, arrived, rest⟩ | ⟨syfu, arrived, type⟩⟩
  · exact Or.inl empty
  · exact Or.inr ⟨last, there, Or.inl ⟨syfu, m, wider p m arrived, rest⟩⟩
  · exact Or.inr ⟨last, there, Or.inr ⟨syfu, wider p last.msg arrived, type⟩⟩

/-- So what is known at some moment of a run stays known in each longer one. -/
theorem Sourced.mono (sourced : Sourced c sent came s) (longer : ∀ p m, sent p m → asked p m)
    (wider : ∀ p m, came p m → more p m) : Sourced c asked more s where
  requests p m member := by
    obtain ⟨began, type⟩ := sourced.requests p m member
    exact ⟨longer p m.msg began, type⟩
  peers p slot m there := (sourced.peers p slot m there).mono longer wider
  last p := (sourced.last p).mono wider
  down := sourced.down.imp id fun down => down.mono wider
  up := sourced.up.imp id fun up => up.mono longer wider

/-- Ports that keep no more. -/
theorem Sourced.lessens (sourced : Sourced c sent came s)
    (ports : ∀ p, Lessens (s.ports p) (t.ports p))
    (down : t.tsproc.t1 = 0 ∧ t.tsproc.t2 = 0 ∨ Downward c came t.tsproc)
    (up : t.tsproc.t3 = 0 ∧ t.tsproc.t4 = 0 ∨ Upward c sent came t.tsproc) :
    Sourced c sent came t where
  requests p m member := sourced.requests p m ((ports p).requests member)
  peers p slot m there := by
    rcases (ports p).peers slot with same | none
    · rw [same] at there
      exact sourced.peers p slot m there
    · rw [none] at there
      cases there
  last p := by
    rcases (ports p).last with ⟨syfu, last⟩ | empty
    · unfold Awaits
      rw [syfu, last]
      exact sourced.last p
    · exact Or.inl empty
  down := down
  up := up

/-- A calm step keeps what is known: there are no new messages and no new times. -/
theorem Sourced.calm (sourced : Sourced c sent came s) (calm : Calm s t) :
    Sourced c sent came t := by
  apply sourced.lessens calm.ports
  · rw [calm.tsproc]
    exact sourced.down
  · rw [calm.tsproc]
    exact sourced.up

/-- One port keeps something else. -/
theorem Sourced.withPort (sourced : Sourced c sent came s) {change : Port → Port}
    (requests : ∀ m ∈ (change (s.ports p)).delayReq, sent p m.msg ∧ m.msg.type = .delayReq)
    (peers : ∀ slot m, (change (s.ports p)).peerDelay slot = some m →
      Slotted sent came p m.msg slot)
    (last : Awaits c came p (change (s.ports p))) :
    Sourced c sent came (s.withPort p change) where
  requests q m member := by
    by_cases here : q = p
    · subst here
      rw [withPort_same] at member
      exact requests m member
    · rw [withPort_other here] at member
      exact sourced.requests q m member
  peers q slot m there := by
    by_cases here : q = p
    · subst here
      rw [withPort_same] at there
      exact peers slot m there
    · rw [withPort_other here] at there
      exact sourced.peers q slot m there
  last q := by
    by_cases here : q = p
    · subst here
      rw [withPort_same]
      exact last
    · rw [withPort_other here]
      exact sourced.last q
  down := sourced.down
  up := sourced.up

/-! ## Syncs and Follow_Ups -/

/-- The correction for UTC is no concern of the time stamp processor. -/
theorem clockUtcCorrect_tsproc (ingress : Int) :
    (clockUtcCorrect c p ingress s).2.tsproc = s.tsproc := by
  rcases clockUtcCorrect_cases c p ingress s with same | ⟨_, _, _, same⟩ <;> rw [same]
  rfl

/-- An offset is computed from the times and leaves them. -/
theorem tsprocUpdateOffset_tsproc : (tsprocUpdateOffset c a p s).tsproc = s.tsproc := by
  unfold tsprocUpdateOffset
  dsimp only
  split <;> rfl

/-- The clock keeps the time stamps that it synchronises with, or none. -/
theorem clockSynchronize_tsproc (ingress origin : Int) (t1From t2From : PortIdentity) :
    (clockSynchronize c a p ingress origin t1From t2From s).2.tsproc =
        tsprocDownTs origin ingress t1From t2From s.tsproc ∨
      (clockSynchronize c a p ingress origin t1From t2From s).2.tsproc =
        tsprocReset false (tsprocDownTs origin ingress t1From t2From s.tsproc) := by
  have corrected (t : ClockState) : (clockUtcCorrect c p ingress
      (tsprocUpdateOffset c a p t)).2.tsproc = t.tsproc :=
    (clockUtcCorrect_tsproc ingress).trans tsprocUpdateOffset_tsproc
  rw [clockSynchronize_eq]
  dsimp only
  split
  · exact Or.inl rfl
  split
  · exact Or.inl (corrected _)
  split
  · exact Or.inl (corrected _)
  · unfold servoSample
    dsimp only
    split
    -- a jump of the servo clears the times
    · exact Or.inr (congrArg (tsprocReset false) (corrected _))
    · exact Or.inl (corrected _)

/-- The times that are put in belong to messages that came, and those of an answer stay what they
were, unless all are cleared. -/
theorem Sourced.portSynchronize (sourced : Sourced c sent came s)
    {ingressTs originTs correction1 correction2 : Int} {t1From t2From : PortIdentity}
    (down : Downward c came (tsprocDownTs
      (originTs + (correctionToTmv correction1 + correctionToTmv correction2)) ingressTs t1From
      t2From s.tsproc)) :
    Sourced c sent came (portSynchronize c a p ingressTs originTs correction1 correction2 t1From
      t2From s) := by
  have timed : Sourced c sent came (setTmo p .syncRxTimer s) := sourced.calm (calm_setTmo _)
  have done : Sourced c sent came (clockSynchronize c a p ingressTs
      (originTs + (correctionToTmv correction1 + correctionToTmv correction2)) t1From t2From
      (setTmo p .syncRxTimer s)).2 := by
    have ports := clockSynchronize_ports (c := c) (a := a) (s := setTmo p .syncRxTimer s) p
      ingressTs (originTs + (correctionToTmv correction1 + correctionToTmv correction2)) t1From
      t2From
    apply timed.lessens
    · intro q
      rw [ports]
      exact Lessens.refl _
    · rcases clockSynchronize_tsproc (c := c) (a := a) (s := setTmo p .syncRxTimer s) (p := p)
        ingressTs (originTs + (correctionToTmv correction1 + correctionToTmv correction2)) t1From
        t2From with same | reset
      · rw [same]
        exact Or.inr down
      · rw [reset]
        exact Or.inl ⟨rfl, rfl⟩
    · rcases clockSynchronize_tsproc (c := c) (a := a) (s := setTmo p .syncRxTimer s) (p := p)
        ingressTs (originTs + (correctionToTmv correction1 + correctionToTmv correction2)) t1From
        t2From with same | reset
      · rw [same]
        exact timed.up
      · rw [reset]
        exact Or.inl ⟨rfl, rfl⟩
  rw [portSynchronize_eq]
  dsimp only
  split
  · exact done.calm (calm_portDispatch _ _)
  · exact done.calm (((calm_portDispatch _ _).trans calm_flushDelayReq).trans
      (calm_dropPeerDelay .req))
  · exact done.calm (calm_portDispatch _ _)

/-- A pair that belongs together is synchronised with. -/
theorem Sourced.completePair (sourced : Sourced c sent came s) {sync fup : PtpMessage}
    (first : came p sync) (type : sync.type = .sync) (twoStep : c.oneStep sync = false)
    (second : came p fup) (kind : fup.type = .followUp)
    (number : fup.sequenceId = sync.sequenceId) :
    Sourced c sent came (completePair c a p
      { sync with correction := sync.correction + (c.setup p).asymmetry } fup s) := by
  have noted : Sourced c sent came (s.note (.paired
      { sync with correction := sync.correction + (c.setup p).asymmetry } fup)) :=
    sourced.calm (calm_clock rfl rfl)
  unfold LinuxPtp.completePair
  apply Sourced.calm _ calm_putLast
  apply noted.portSynchronize
  exact ⟨p, sync, first, type, rfl, rfl, Or.inr ⟨twoStep, fup, second, kind, number, rfl, rfl⟩⟩

/-- The half of a pair is kept that has just come. -/
theorem Sourced.keepLast (sourced : Sourced c sent came s) {kind : SyfuState} {m : Stored}
    (awaits : ∀ port : Port, Awaits c came p
      { port with syfu := kind, lastSyncfup := some m }) :
    Sourced c sent came (keepLast p kind m s) := by
  have got : Sourced c sent came (s.get m.cell) := sourced.calm (calm_clock rfl rfl)
  unfold LinuxPtp.keepLast
  apply got.withPort
  · exact fun m member => got.requests p m member
  · exact fun slot m there => got.peers p slot m there
  · exact awaits _

/-- A message that has no partner yet is kept. -/
theorem Sourced.mismatch (sourced : Sourced c sent came s) {event : SyfuEvent} {m : Stored}
    (mismatch : event = .syncMismatch ∧ (∃ sync, came p sync ∧ sync.type = .sync ∧
        c.oneStep sync = false ∧ m.msg =
          { sync with correction := sync.correction + (c.setup p).asymmetry }) ∨
      event = .fupMismatch ∧ came p m.msg ∧ m.msg.type = .followUp) :
    Sourced c sent came (portSyfufsm c a p event m s) := by
  have emptied : Sourced c sent came (putLast p s) := sourced.calm calm_putLast
  unfold portSyfufsm
  rcases mismatch with ⟨rfl, source⟩ | ⟨rfl, source⟩
  · have awaits (port : Port) : Awaits c came p
        { port with syfu := .haveSync, lastSyncfup := some m } :=
      Or.inr ⟨m, rfl, Or.inl ⟨rfl, source⟩⟩
    cases (s.ports p).syfu with
    | empty => exact sourced.keepLast awaits
    | haveSync | haveFup => exact emptied.keepLast awaits
  · have awaits (port : Port) : Awaits c came p
        { port with syfu := .haveFup, lastSyncfup := some m } :=
      Or.inr ⟨m, rfl, Or.inr ⟨rfl, source⟩⟩
    cases (s.ports p).syfu with
    | empty => exact sourced.keepLast awaits
    | haveSync | haveFup => exact emptied.keepLast awaits

/-- A Follow_Up completes a pair, is kept, or is passed over. -/
theorem Sourced.processFollowUp (sourced : Sourced c sent came s) {m : Stored}
    (arrived : came p m.msg) (type : m.msg.type = .followUp) :
    Sourced c sent came (processFollowUp c a p m s) := by
  unfold LinuxPtp.processFollowUp
  split
  · exact sourced
  split
  · exact sourced
  split
  · exact sourced
  split
  next matching =>
    obtain ⟨kind, sequence⟩ := matching
    unfold portSyfufsm
    rw [kind]
    dsimp only
    split
    next => exact sourced
    next last there =>
      have number : last.msg.sequenceId = m.msg.sequenceId := by
        simpa [sameSequence, there] using sequence
      rcases sourced.last p with empty | ⟨other, same, ⟨_, sync, first, isSync, twoStep, content⟩ |
        ⟨syfu, _⟩⟩
      · rw [kind] at empty
        cases empty
      · cases there.symm.trans same
        rw [content] at number ⊢
        exact sourced.completePair first isSync twoStep arrived type number.symm
      · rw [kind] at syfu
        cases syfu
  next => exact sourced.mismatch (Or.inr ⟨rfl, arrived, type⟩)

/-- A Sync does the same; one that needs no Follow_Up is a pair by itself. -/
theorem Sourced.processSync (sourced : Sourced c sent came s) {m : Stored}
    (arrived : came p m.msg) (type : m.msg.type = .sync) :
    Sourced c sent came (processSync c a p m s) := by
  unfold LinuxPtp.processSync
  split
  · exact sourced
  split
  · exact sourced
  have counted : Sourced c sent came (s.withRunning p fun running =>
      { running with logSyncInterval := m.msg.logMessageInterval }) :=
    sourced.calm (calm_running _)
  have began : Sourced c sent came ((s.withRunning p fun running =>
      { running with logSyncInterval := m.msg.logMessageInterval }).amend
        (asymmetric c p m).cell (asymmetric c p m).msg) := counted.calm (calm_clock rfl rfl)
  dsimp only
  generalize (s.withRunning p fun running =>
    { running with logSyncInterval := m.msg.logMessageInterval }).amend
      (asymmetric c p m).cell (asymmetric c p m).msg = t at began ⊢
  split
  next oneStep =>
    apply Sourced.calm _ calm_flushLastSync
    apply began.portSynchronize
    refine ⟨p, m.msg, arrived, type, rfl, rfl, Or.inl ⟨oneStep, rfl, ?_⟩⟩
    change m.msg.pdu + (correctionToTmv _ + correctionToTmv 0) = _
    rw [show correctionToTmv 0 = 0 from rfl, add_zero]
    rfl
  next twoStep =>
    have twoStep : c.oneStep m.msg = false := Bool.eq_false_of_not_eq_true twoStep
    split
    next matching =>
      obtain ⟨kind, _, sequence⟩ := matching
      unfold portSyfufsm
      rw [kind]
      dsimp only
      split
      next => exact began
      next last there =>
        have number : last.msg.sequenceId = (asymmetric c p m).msg.sequenceId := by
          simpa [sameSequence, there] using sequence
        rcases began.last p with empty | ⟨other, same, ⟨syfu, _⟩ | ⟨_, second, isFup⟩⟩
        · rw [kind] at empty
          cases empty
        · rw [kind] at syfu
          cases syfu
        · cases there.symm.trans same
          exact began.completePair arrived type twoStep second isFup number
    next => exact began.mismatch (Or.inl ⟨rfl, m.msg, arrived, type, twoStep, rfl⟩)

/-! ## Requests and answers -/

/-- What building and sending a request comes to. -/
theorem sendRequest_outcome (m : Stored) :
    (∃ t, sendRequest a p m s = (none, t) ∧ Calm s t) ∨
      ∃ stamp tick t, a.sends p tick = some stamp ∧ Calm s t ∧
        sendRequest a p m s = (some { m with msg := { m.msg with hwts := stamp } }, t) := by
  unfold sendRequest
  split
  · exact Or.inl ⟨_, rfl, calm_clock rfl rfl⟩
  next stamp stamped =>
    have amended : Calm s (s.ask.amend m.cell { m.msg with hwts := stamp }) := calm_clock rfl rfl
    exact Or.inr ⟨stamp, s.asked, _, stamped, amended, rfl⟩

/-- A request that a port sends, with the number that comes next. -/
def Requests (c : Clock) (a : Answers) (p : Nat) (number : UInt16) (m : PtpMessage) : Prop :=
  m.sourcePortIdentity = c.portIdentity p ∧ m.sequenceId = number ∧
    ∃ tick, a.sends p tick = some m.hwts

/-- A Pdelay_Req is sent, and kept in its slot as what was sent. -/
theorem Sourced.portPdelayRequest (sourced : Sourced c sent came s)
    (sends : ∀ m, Requests c a p (s.ports p).running.delayreqSeqnum m → sent p m) :
    Sourced c sent came (portPdelayRequest c a p s).2 := by
  unfold LinuxPtp.portPdelayRequest
  dsimp only
  generalize began : s.withRunning p _ = t
  have before : Sourced c sent came t := by
    rw [← began]
    exact sourced.calm (calm_running _)
  have number : (t.ports p).running.delayreqSeqnum - 1 = (s.ports p).running.delayreqSeqnum := by
    rw [← began, withRunning_same]
    exact UInt16.add_sub_cancel _ _
  rw [number]
  generalize content : { c.newMessage p .pdelayReq with
    correction := -(c.setup p).asymmetry
    sequenceId := (s.ports p).running.delayreqSeqnum } = msg
  have obtained : Sourced c sent came (t.obtain msg).2 := before.calm (calm_clock rfl rfl)
  rcases sendRequest_outcome (a := a) (p := p) (s := (t.obtain msg).2) (t.obtain msg).1 with
    ⟨u, same, calm⟩ | ⟨stamp, tick, u, stamped, calm, same⟩
  · rw [same]
    exact obtained.calm calm
  · rw [same]
    have dropped : Sourced c sent came ((dropPeerDelay .req p u).handOver (t.obtain msg).1.cell) :=
      (obtained.calm calm).calm ((calm_dropPeerDelay .req).trans (calm_clock rfl rfl))
    dsimp only
    unfold keepPeerDelay
    apply dropped.withPort
    · exact fun m member => dropped.requests p m member
    · intro slot m there
      dsimp only at there
      by_cases here : slot = .req
      · subst here
        rw [Function.update_self] at there
        cases there
        refine ⟨sends _ ⟨?_, ?_, tick, stamped⟩, ?_⟩
        all_goals
          rw [← content]
          rfl
      · rw [Function.update_of_ne here] at there
        exact dropped.peers p slot m there
    · exact dropped.last p

/-- A Delay_Req is sent and kept in the list, with the sequence number that the port had counted up
to. -/
theorem Sourced.portDelayRequest (sourced : Sourced c sent came s)
    (sends : ∀ m, Requests c a p (s.ports p).running.delayreqSeqnum m → sent p m) :
    Sourced c sent came (portDelayRequest c a p s).2 := by
  have dropped : Sourced c sent came (dropPeerDelay .fup p (dropPeerDelay .resp p s)) :=
    sourced.calm ((calm_dropPeerDelay .resp).trans (calm_dropPeerDelay .fup))
  have counter : ((dropPeerDelay .fup p (dropPeerDelay .resp p s)).ports p).running =
      (s.ports p).running := by
    obtain ⟨_, first⟩ := dropPeerDelay_state .resp p s
    obtain ⟨_, second⟩ := dropPeerDelay_state .fup p (dropPeerDelay .resp p s)
    rw [second]
    dsimp only
    rw [Function.update_self, first]
    dsimp only
    rw [Function.update_self]
  unfold LinuxPtp.portDelayRequest
  dsimp only
  generalize dropPeerDelay .fup p (dropPeerDelay .resp p s) = t at dropped counter ⊢
  rw [← counter] at sends
  split
  · exact dropped.portPdelayRequest sends
  generalize began : t.withRunning p _ = u
  have before : Sourced c sent came u := by
    rw [← began]
    exact dropped.calm (calm_running _)
  have number : (u.ports p).running.delayreqSeqnum - 1 = (t.ports p).running.delayreqSeqnum := by
    rw [← began, withRunning_same]
    exact UInt16.add_sub_cancel _ _
  rw [number]
  generalize content : ({ c.newMessage p .delayReq with
    correction := -(c.setup p).asymmetry
    sequenceId := (t.ports p).running.delayreqSeqnum
    flags := if (c.setup p).hybridE2e then unicast else 0
    host := a.now } : PtpMessage) = msg
  have obtained : Sourced c sent came (u.obtain msg).2 := before.calm (calm_clock rfl rfl)
  have read : Sourced c sent came (if (c.setup p).hybridE2e then takeFirst p (u.obtain msg).2
      else (u.obtain msg).2) := by
    split
    · exact obtained.calm (calm_clock rfl rfl)
    · exact obtained
  generalize (if (c.setup p).hybridE2e then takeFirst p (u.obtain msg).2
    else (u.obtain msg).2) = v at read ⊢
  rcases sendRequest_outcome (a := a) (p := p) (s := v) (u.obtain msg).1 with
    ⟨w, same, calm⟩ | ⟨stamp, tick, w, stamped, calm, same⟩
  · rw [same]
    exact read.calm calm
  · rw [same]
    have handed : Sourced c sent came (w.handOver (u.obtain msg).1.cell) :=
      (read.calm calm).calm (calm_clock rfl rfl)
    dsimp only
    apply handed.withPort
    · intro m member
      rcases List.mem_cons.mp member with rfl | before
      · refine ⟨sends _ ⟨?_, ?_, tick, stamped⟩, ?_⟩
        all_goals
          rw [← content]
          rfl
      · exact handed.requests p m before
    · exact fun slot m there => handed.peers p slot m there
    · exact handed.last p

/-- An answer is matched with a request of the list: the port sent it, and the answer names it. -/
theorem Sourced.processDelayResp (sourced : Sourced c sent came s) {m : Stored}
    (arrived : came p m.msg) (type : m.msg.type = .delayResp) :
    Sourced c sent came (processDelayResp c p m s) := by
  unfold LinuxPtp.processDelayResp
  split
  · exact sourced
  split
  · exact sourced
  next addressed =>
    split
    · exact sourced
    split
    · exact sourced
    next req found =>
      have number : req.msg.sequenceId = m.msg.sequenceId := by
        simpa using List.find?_some found
      obtain ⟨began, kind⟩ := sourced.requests p req (List.mem_of_find?_eq_some found)
      have up : Upward c sent came (tsprocUpTs req.msg.hwts
          (m.msg.pdu - correctionToTmv m.msg.correction) m.msg.sourcePortIdentity s.tsproc) :=
        ⟨p, req.msg, m.msg, began, arrived, not_not.mp addressed, number.symm, rfl, rfl,
          Or.inl ⟨kind, type, rfl⟩⟩
      have measured : Sourced c sent came (clockPathDelay p req.msg.hwts
          (m.msg.pdu - correctionToTmv m.msg.correction) m.msg.sourcePortIdentity s) := by
        unfold clockPathDelay
        dsimp only
        split
        · exact sourced.lessens (fun _ => Lessens.refl _) sourced.down (Or.inr up)
        · exact sourced.lessens (fun _ => Lessens.refl _) sourced.down (Or.inr up)
      exact measured.calm ((calm_dropDelayReq req).trans (calm_takeDelayInterval m.msg))

/-- The times of a peer delay are put in. -/
theorem Sourced.peerDelayCalc (sourced : Sourced c sent came s) {req rsp : PtpMessage} {t2 : Int}
    (up : Upward c sent came
      (tsprocUpTs req.hwts t2 rsp.sourcePortIdentity (tsprocSetDelay s.tsproc))) :
    Sourced c sent came (peerDelayCalc p req rsp t2 s) := by
  unfold LinuxPtp.peerDelayCalc
  split
  · exact sourced
  · dsimp only
    apply Sourced.calm _ (calm_dropPeerDelay .req)
    split
    · unfold clockPeerDelay
      exact sourced.lessens (fun _ => Lessens.refl _)
        (sourced.down.imp id fun ⟨p, sync, rest⟩ => ⟨p, sync, rest⟩) (Or.inr up)
    · exact sourced

/-- A measurement is complete if its messages belong together. -/
theorem Sourced.portPeerDelay (sourced : Sourced c sent came s) :
    Sourced c sent came (portPeerDelay c p s) := by
  unfold LinuxPtp.portPeerDelay
  split
  next req rsp asking answering =>
    obtain ⟨began, first⟩ := sourced.peers p .req req asking
    obtain ⟨arrived, second⟩ := sourced.peers p .resp rsp answering
    split
    · exact sourced
    next addressed =>
      split
      · exact sourced
      next number =>
        have up {t2 : Int} (answered : Answered c came p rsp.msg t2) : Upward c sent came
            (tsprocUpTs req.msg.hwts t2 rsp.msg.sourcePortIdentity (tsprocSetDelay s.tsproc)) :=
          ⟨p, req.msg, rsp.msg, began, arrived, not_not.mp addressed, not_not.mp number, rfl, rfl,
            Or.inr ⟨first, second, answered⟩⟩
        split
        next oneStep => exact sourced.peerDelayCalc (up (Or.inl ⟨oneStep, rfl⟩))
        next twoStep =>
          split
          · exact sourced
          next fup following =>
            obtain ⟨followed, third⟩ := sourced.peers p .fup fup following
            split
            · exact sourced
            next mine =>
              split
              · exact sourced
              next same =>
                split
                · exact sourced
                next source =>
                  apply sourced.peerDelayCalc
                  apply up
                  exact Or.inr ⟨Bool.eq_false_of_not_eq_true twoStep, rfl, fup.msg, followed, third,
                    not_not.mp mine, not_not.mp same, not_not.mp source⟩
  next => exact sourced

/-- A message of a peer is kept in a slot. -/
theorem Sourced.keepPeerDelay (sourced : Sourced c sent came s) {slot : PeerSlot} {m : Stored}
    (slotted : Slotted sent came p m.msg slot) :
    Sourced c sent came (keepPeerDelay slot p m (s.get m.cell)) := by
  have got : Sourced c sent came (s.get m.cell) := sourced.calm (calm_clock rfl rfl)
  unfold LinuxPtp.keepPeerDelay
  apply got.withPort
  · exact fun m member => got.requests p m member
  · intro other m there
    dsimp only at there
    by_cases here : other = slot
    · subst here
      rw [Function.update_self] at there
      cases there
      exact slotted
    · rw [Function.update_of_ne here] at there
      exact got.peers p other m there
  · exact got.last p

/-- An answer of a peer is kept, and if it is a one-step one its times are used at once. -/
theorem Sourced.processPdelayResp (sourced : Sourced c sent came s) {m : Stored}
    (arrived : came p m.msg) (type : m.msg.type = .pdelayResp) :
    Sourced c sent came (processPdelayResp c a p m s).2 := by
  have counted : Sourced c sent came (countPeers p m.msg s) := sourced.calm (calm_countPeers m.msg)
  unfold LinuxPtp.processPdelayResp
  dsimp only
  split
  · exact counted.calm (calm_withFaultType _)
  split
  · exact counted
  · have met := counted.calm (calm_meetPeer (a := a) (p := p) m.msg.sourcePortIdentity)
    apply Sourced.portPeerDelay
    apply Sourced.keepPeerDelay
    · exact met.calm (calm_dropPeerDelay .resp)
    · exact ⟨arrived, type⟩

/-- A Follow_Up of a peer completes the times. -/
theorem Sourced.processPdelayRespFup (sourced : Sourced c sent came s) {m : Stored}
    (arrived : came p m.msg) (type : m.msg.type = .pdelayRespFollowUp) :
    Sourced c sent came (processPdelayRespFup c p m s) := by
  unfold LinuxPtp.processPdelayRespFup
  split
  · exact sourced
  · apply Sourced.portPeerDelay
    apply Sourced.keepPeerDelay
    · exact sourced.calm (calm_dropPeerDelay .fup)
    · exact ⟨arrived, type⟩

/-! ## Events -/

/-- The message that was read, by its type. -/
theorem Sourced.bcProcess (sourced : Sourced c sent came s) {m : Stored} (arrived : came p m.msg) :
    Sourced c sent came (bcProcess c a p m s).2 := by
  unfold LinuxPtp.bcProcess
  split
  next type => exact sourced.processSync arrived type
  next => exact sourced.calm (calm_processDelayReq m)
  next => exact sourced.calm (calm_processPdelayReq m)
  next type => exact sourced.processPdelayResp arrived type
  next type => exact sourced.processFollowUp arrived type
  next type => exact sourced.processDelayResp arrived type
  next type => exact sourced.processPdelayRespFup arrived type
  next => exact sourced.calm (calm_processAnnounce m)
  next => exact sourced
  next => exact sourced.calm (calm_clockManage m.msg)

/-- What a step at a port allows to say of its messages. -/
structure Vouches (c : Clock) (a : Answers) (p : Nat) (fd : Descriptor) (s : ClockState)
    (sent came : Nat → PtpMessage → Prop) : Prop where
  sends : fd = .delayTimer → ∀ m, Requests c a p (s.ports p).running.delayreqSeqnum m → sent p m
  comes : fd = .event ∨ fd = .general → ∀ m, a.received = .message m → Heeded c p m → came p m

/-- The socket is read. What is read is what the run says has come. -/
theorem Sourced.bcReceive (sourced : Sourced c sent came s) {fd : Descriptor}
    (vouches : Vouches c a p fd s sent came) (socket : fd = .event ∨ fd = .general)
    (fixed : ¬c.relays) : Sourced c sent came (bcReceive c a p s).2 := by
  unfold LinuxPtp.bcReceive
  split
  next => exact sourced.calm (calm_scratch _)
  next => exact sourced.calm (calm_scratch _)
  next msg received =>
    have began : Sourced c sent came (s.obtain msg).2.ask :=
      sourced.calm ((calm_obtain msg).trans calm_ask)
    unfold portCapable
    dsimp only
    apply Sourced.calm _ (calm_release _)
    split
    next => exact began
    next heeded =>
      have arrived := delivered_bc socket fixed received (Bool.eq_false_iff.mpr heeded)
      have came := vouches.comes socket msg received (heeded_of_delivered arrived).2
      exact began.bcProcess (m := (s.obtain msg).1) came

/-- A copy is handled if there is one. -/
theorem Sourced.copy {dup : Bool} {t u : ClockState} (forwarded : Sourced c sent came t)
    (handled : dup = true → Sourced c sent came u) :
    Sourced c sent came (if dup then u else t) := by
  split
  next copied => exact handled copied
  next => exact forwarded

/-- The same for a handler that has a result. -/
theorem Sourced.answer {dup : Bool} {result other : FsmEvent × ClockState}
    (forwarded : Sourced c sent came other.2) (handled : dup = true → Sourced c sent came result.2) :
    Sourced c sent came (if dup then result else other).2 := by
  split
  next copied => exact handled copied
  next => exact forwarded

/-- A message at an end to end transparent clock: the copy is what came. -/
theorem Sourced.e2eProcess (sourced : Sourced c sent came s) {m : Stored} {dup : Bool}
    (arrived : dup = true → came p m.msg) : Sourced c sent came (e2eProcess c a p m dup s).2 := by
  have passed : Sourced c sent came (forwardPass c a p m.msg s) :=
    sourced.calm (calm_forwardPass p m.msg)
  have synced : Sourced c sent came (fwdSync c a p m.msg s) := sourced.calm (calm_fwdSync p m.msg)
  unfold LinuxPtp.e2eProcess
  split
  next type => exact synced.copy fun copied => synced.processSync (arrived copied) type
  next => exact sourced.calm (calm_fwdEvent p m.msg)
  next type => exact passed.copy fun copied => passed.processFollowUp (arrived copied) type
  next type => exact passed.copy fun copied => passed.processDelayResp (arrived copied) type
  next => exact Sourced.answer passed fun _ => passed.calm (calm_processAnnounce m)
  next => exact passed
  next => exact passed
  all_goals exact sourced

/-- A message at a peer to peer transparent clock. -/
theorem Sourced.p2pProcess (sourced : Sourced c sent came s) {m : Stored} {dup : Bool}
    (arrived : dup = true → came p m.msg) : Sourced c sent came (p2pProcess c a p m dup s).2 := by
  have passed : Sourced c sent came (forwardPass c a p m.msg s) :=
    sourced.calm (calm_forwardPass p m.msg)
  have synced : Sourced c sent came (fwdSync c a p m.msg s) := sourced.calm (calm_fwdSync p m.msg)
  unfold LinuxPtp.p2pProcess
  split
  next type => exact synced.copy fun copied => synced.processSync (arrived copied) type
  next => exact Sourced.answer sourced fun _ => sourced.calm (calm_processPdelayReq m)
  next type =>
    exact Sourced.answer sourced fun copied => sourced.processPdelayResp (arrived copied) type
  next type => exact passed.copy fun copied => passed.processFollowUp (arrived copied) type
  next type => exact sourced.copy fun copied => sourced.processPdelayRespFup (arrived copied) type
  next => exact Sourced.answer passed fun _ => passed.calm (calm_processAnnounce m)
  next => exact passed
  next => exact passed
  all_goals exact sourced

/-- The socket of a transparent clock is read. -/
theorem Sourced.relayReceive (sourced : Sourced c sent came s) {fd : Descriptor}
    (vouches : Vouches c a p fd s sent came) (socket : fd = .event ∨ fd = .general)
    (relays : c.relays) (endToEnd : Bool) :
    Sourced c sent came (relayReceive c a endToEnd p s).2 := by
  unfold LinuxPtp.relayReceive
  split
  next => exact sourced.calm (calm_scratch _)
  next => exact sourced.calm (calm_scratch _)
  next msg received =>
    have began : Sourced c sent came (s.obtain msg).2 := sourced.calm (calm_obtain msg)
    have released : Sourced c sent came ((s.obtain msg).2.release (s.obtain msg).1.cell) :=
      began.calm (calm_release _)
    have handled {t : ClockState} {dup : Bool} (prepared : Sourced c sent came t)
        (arrived : dup = true → came p msg) : Sourced c sent came
          (if endToEnd then LinuxPtp.e2eProcess c a p (s.obtain msg).1 dup t
            else LinuxPtp.p2pProcess c a p (s.obtain msg).1 dup t).2 := by
      split
      · exact prepared.e2eProcess arrived
      · exact prepared.p2pProcess arrived
    dsimp only
    split
    next => exact released
    next multicast =>
      cases ignored : tcIgnore c p msg with
      | false =>
        have delivers : delivered c a p fd s = some msg :=
          delivered_relay socket relays received (by simpa using multicast) ignored
        have arrived := vouches.comes socket msg received (heeded_of_delivered delivers).2
        exact (handled began fun _ => arrived).calm (calm_release _)
      | true => exact handled released nofun

/-- Taking requests off the list leaves the sequence numbers. -/
theorem delayReqPrune_running : ((delayReqPrune a p s).ports p).running =
    (s.ports p).running := by
  unfold delayReqPrune
  generalize ((s.ports p).delayReq.reverse.takeWhile fun m => !delayReqCurrent m.msg a.now) = items
  induction items generalizing s with
  | nil => rfl
  | cons m rest inductionHypothesis =>
    rw [List.foldl_cons, inductionHypothesis]
    unfold dropDelayReq
    rw [withPort_same]
    rfl

/-- A descriptor of an ordinary or boundary clock: a socket, a timer for requests, or one that is
calm. -/
theorem Sourced.bcEvent (sourced : Sourced c sent came s) {fd : Descriptor}
    (vouches : Vouches c a p fd s sent came) (fixed : ¬c.relays) :
    Sourced c sent came (bcEvent c a p fd s).2 := by
  unfold LinuxPtp.bcEvent
  split
  · exact sourced.calm calm_bcTimeout
  · exact sourced.calm calm_bcTimeout
  · apply Sourced.portDelayRequest
    · exact sourced.calm ((calm_setTmo _).trans calm_delayReqPrune)
    · intro m asks
      rw [delayReqPrune_running] at asks
      apply vouches.sends rfl
      unfold setTmo at asks
      rw [withRunning_same] at asks
      exact asks
  · exact sourced
  · exact sourced.calm ((calm_setTmo _).trans calm_portTxAnnounce)
  · exact sourced.calm ((calm_setTmo _).trans calm_portTxSync)
  · exact sourced.calm calm_rtnlEvent
  · exact sourced.bcReceive vouches (Or.inl rfl) fixed
  · exact sourced.bcReceive vouches (Or.inr rfl) fixed

/-- A descriptor of an end to end transparent clock. -/
theorem Sourced.e2eEvent (sourced : Sourced c sent came s) {fd : Descriptor}
    (vouches : Vouches c a p fd s sent came) (relays : c.relays) :
    Sourced c sent came (e2eEvent c a p fd s).2 := by
  unfold LinuxPtp.e2eEvent
  split
  · exact sourced.calm calm_tcTimeout
  · exact sourced.calm calm_tcTimeout
  · have pruned : Sourced c sent came (delayReqPrune a p (setTmo p .delayTimer s)) :=
      sourced.calm ((calm_setTmo _).trans calm_delayReqPrune)
    unfold e2eDelayTimer
    dsimp only
    split
    · apply pruned.portDelayRequest
      intro m asks
      rw [delayReqPrune_running] at asks
      apply vouches.sends rfl
      unfold setTmo at asks
      rw [withRunning_same] at asks
      exact asks
    · exact pruned
  · exact sourced
  · exact sourced
  · exact sourced
  · exact sourced.calm calm_rtnlEvent
  · exact sourced.relayReceive vouches (Or.inl rfl) relays true
  · exact sourced.relayReceive vouches (Or.inr rfl) relays true

/-- A descriptor of a peer to peer transparent clock. -/
theorem Sourced.p2pEvent (sourced : Sourced c sent came s) {fd : Descriptor}
    (vouches : Vouches c a p fd s sent came) (relays : c.relays) :
    Sourced c sent came (p2pEvent c a p fd s).2 := by
  unfold LinuxPtp.p2pEvent
  split
  · exact sourced.calm calm_tcTimeout
  · exact sourced.calm calm_tcTimeout
  · have timed : Sourced c sent came (setTmo p .delayTimer s) := sourced.calm (calm_setTmo _)
    unfold p2pDelayTimer
    dsimp only
    split
    · apply timed.portDelayRequest
      intro m asks
      apply vouches.sends rfl
      unfold setTmo at asks
      rw [withRunning_same] at asks
      exact asks
    · exact timed
  · exact sourced
  · exact sourced
  · exact sourced
  · exact sourced.calm calm_rtnlEvent
  · exact sourced.relayReceive vouches (Or.inl rfl) relays false
  · exact sourced.relayReceive vouches (Or.inr rfl) relays false

/-- A descriptor, whatever the type of the clock is. -/
theorem Sourced.portEvent (sourced : Sourced c sent came s) {fd : Descriptor}
    (vouches : Vouches c a p fd s sent came) : Sourced c sent came (portEvent c a p fd s).2 := by
  unfold LinuxPtp.portEvent
  split
  next type => exact sourced.bcEvent vouches (by simp [Clock.relays, type])
  next type => exact sourced.bcEvent vouches (by simp [Clock.relays, type])
  next type => exact sourced.e2eEvent vouches (Or.inl type)
  next type => exact sourced.p2pEvent vouches (Or.inr type)

/-! ## Steps -/

/-- A descriptor and the event that it raises. -/
theorem Sourced.handleDescriptor (sourced : Sourced c sent came s) {fd : Descriptor}
    (vouches : Vouches c a p fd s sent came) : Sourced c sent came (handleDescriptor c a p fd s) := by
  have handled : Sourced c sent came (LinuxPtp.portEvent c a p fd s).2 := sourced.portEvent vouches
  unfold LinuxPtp.handleDescriptor
  dsimp only
  apply Sourced.calm _ (calm_portDispatch _ _)
  split
  · exact handled.calm (calm_clock rfl rfl)
  · exact handled

/-- A descriptor of the local socket. -/
theorem Sourced.handleUds (sourced : Sourced c sent came s) {fd : Descriptor}
    (vouches : Vouches c a 0 fd s sent came) : Sourced c sent came (handleUds c a fd s) := by
  have handled : Sourced c sent came (LinuxPtp.portEvent c a 0 fd s).2 := sourced.portEvent vouches
  unfold LinuxPtp.handleUds
  dsimp only
  split
  · exact handled.calm (calm_clock rfl rfl)
  · exact handled

/-- A fault timer is set. -/
theorem calm_armFault : Calm s (armFault c p s) := by
  unfold armFault
  exact calm_port fun _ => ⟨rfl, rfl, rfl, rfl⟩

/-- A fault timer is stopped. -/
theorem calm_disarmFault : Calm s (disarmFault p s) := by
  unfold disarmFault
  exact calm_port fun _ => ⟨rfl, rfl, rfl, rfl⟩

/-- A port whose fault timer has expired is initialised again. -/
theorem calm_handleFaultTimer : Calm s (handleFaultTimer c a p s) := by
  have disarmed : Calm s (disarmFault p s) := calm_disarmFault
  unfold handleFaultTimer
  dsimp only
  split
  · exact disarmed.trans (calm_portDispatch _ _)
  · exact disarmed

/-- What a state decision recommends to one port. -/
theorem calm_recommend (freshBest : Bool) : Calm s (recommend c a freshBest s p) := by
  obtain ⟨_, _, _, _, _, _, same⟩ := informed_state (c := c) (bmcStateDecision c p s) s
  have informed : Calm s (informed c (bmcStateDecision c p s) s) := by
    rw [same]
    exact calm_clock rfl rfl
  rw [recommend_eq]
  exact informed.trans (calm_portDispatch _ _)

/-- A state decision keeps the time stamps or forgets them all. -/
theorem Sourced.decided (sourced : Sourced c sent came s) :
    Sourced c sent came (decided c a s).2 := by
  have ports (q : Nat) : Lessens (s.ports q) ((LinuxPtp.decided c a s).2.ports q) := by
    obtain ⟨_, _, _, _, _, _, _, each, same⟩ := decided_state (c := c) (a := a) s
    obtain ⟨_, _, here⟩ := each q
    rw [same]
    dsimp only
    rw [here]
    exact ⟨List.Subset.refl _, fun _ => Or.inl rfl, Or.inl ⟨rfl, rfl⟩⟩
  have elected : (noteUsed (electBest c a c.ports s).2).tsproc = s.tsproc := by
    obtain ⟨_, _, _, same⟩ := electFrom_state (c := c) (a := a) c.ports none s
    change (electFrom c a c.ports none s).2.tsproc = s.tsproc
    rw [same]
  unfold LinuxPtp.decided at ports ⊢
  rw [adoptBest_eq] at ports ⊢
  apply sourced.lessens ports
  all_goals
    dsimp only
    unfold tsprocFor
    rw [elected]
    split
    · left
      split <;> exact ⟨rfl, rfl⟩
    · first | exact sourced.down | exact sourced.up

/-- A state decision clears times or leaves them, so it is enough that each part of it is calm or
clears. -/
theorem Sourced.handleDecision (sourced : Sourced c sent came s) :
    Sourced c sent came (handleDecision c a s) := by
  unfold LinuxPtp.handleDecision
  split
  · rw [handleStateDecisionEvent_eq]
    have told : Calm (LinuxPtp.decided c a s).2
        (c.ports.foldl (recommend c a (LinuxPtp.decided c a s).1) (LinuxPtp.decided c a s).2) :=
      Calm.foldl (fun _ _ => calm_recommend _) _ _
    exact sourced.decided.calm (told.trans (calm_clock rfl rfl))
  · exact sourced

end Handlers

/-! ## Runs -/

section Runs

variable {c : Clock} {start : StartUp}

/-- The port, the descriptor and the answers of a step that handles a descriptor. -/
def PollStep.handling (s : PollState) : PollStep → Option (Nat × Descriptor × Answers)
  | .descriptor p fd a => if s.faulted then none else some (p, fd, a)
  | .uds fd a => some (0, fd, a)
  | .enter _ | .faultTimer _ _ | .decide _ => none

/-- A descriptor of a port was handled at some moment. -/
def Handled (c : Clock) (start : StartUp) (events : List PollStep) (s : PollState) (p : Nat)
    (fd : Descriptor) (a : Answers) : Prop :=
  ∃ moment step, moment ++ [step] <+: events ∧ s = moment.foldl (pollStep c) (start.state c) ∧
    step.handling s = some (p, fd, a)

/-- A port sent a request at some moment, when its delay timer was handled. -/
def Sent (c : Clock) (start : StartUp) (events : List PollStep) (p : Nat) (m : PtpMessage) : Prop :=
  ∃ s a, Handled c start events s p .delayTimer a ∧
    Requests c a p (s.clock.ports p).running.delayreqSeqnum m

/-- A port received a message at some moment, and did not ignore it. -/
def Came (c : Clock) (start : StartUp) (events : List PollStep) (p : Nat) (m : PtpMessage) : Prop :=
  ∃ s fd a, Handled c start events s p fd a ∧ (fd = .event ∨ fd = .general) ∧
    a.received = .message m ∧ Heeded c p m

/-- What was handled in a run was handled in each longer one. -/
theorem Handled.mono {events more : List PollStep} {s : PollState} {p : Nat} {fd : Descriptor}
    {a : Answers} (handled : Handled c start events s p fd a) (longer : events <+: more) :
    Handled c start more s p fd a := by
  obtain ⟨moment, step, early, rest⟩ := handled
  exact ⟨moment, step, early.trans longer, rest⟩

/-- One step of the loop. Only a descriptor brings or sends messages, and what it does the run
vouches for. -/
theorem pollStep_sourced {sent came : Nat → PtpMessage → Prop} {s : PollState} {step : PollStep}
    (vouches : ∀ p fd a, step.handling s = some (p, fd, a) → Vouches c a p fd s.clock sent came)
    (sourced : Sourced c sent came s.clock) : Sourced c sent came (pollStep c s step).clock := by
  cases step with
  | enter p => exact sourced
  | descriptor p fd a =>
    apply pollStep_descriptor (Sourced c sent came) sourced
    · intro busy
      apply sourced.handleDescriptor
      apply vouches
      unfold PollStep.handling
      rw [busy]
      rfl
    · exact fun t sourced => sourced.calm calm_armFault
  | faultTimer p a => exact sourced.calm calm_handleFaultTimer
  | uds fd a => exact sourced.handleUds (vouches 0 fd a rfl)
  | decide a => exact sourced.handleDecision

/-- At the start there are neither messages nor times. -/
theorem sourced_start {sent came : Nat → PtpMessage → Prop} :
    Sourced c sent came (start.state c).clock := by
  have opened : Sourced c sent came
      (clockOpen c start.dds start.utcOffset start.timeSource start.realtime) := by
    constructor
    · exact fun p m member => absurd member List.not_mem_nil
    · intro p slot m there
      cases there
    · exact fun p => Or.inl rfl
    · exact Or.inl ⟨rfl, rfl⟩
    · exact Or.inl ⟨rfl, rfl⟩
  exact opened.calm (Calm.foldl (fun _ _ => calm_portDispatch _ _) _ _)

/-- After every run, by induction on it: each step adds what it vouches for to what was known
before. -/
theorem sourced_run (events : List PollStep) :
    Sourced c (Sent c start events) (Came c start events)
      (events.foldl (pollStep c) (start.state c)).clock := by
  induction events using List.reverseRecOn with
  | nil => exact sourced_start
  | append_singleton events step inductionHypothesis =>
    have longer : events <+: events ++ [step] := List.prefix_append ..
    rw [List.foldl_append, List.foldl_cons, List.foldl_nil]
    apply pollStep_sourced
    · intro p fd a handles
      have handled : Handled c start (events ++ [step])
          (events.foldl (pollStep c) (start.state c)) p fd a :=
        ⟨events, step, List.prefix_refl _, rfl, handles⟩
      constructor
      · rintro rfl m asks
        exact ⟨_, a, handled, asks⟩
      · exact fun socket m received heeded => ⟨_, fd, a, handled, socket, received, heeded⟩
    · apply inductionHypothesis.mono
      · exact fun p m ⟨s, a, handled, asks⟩ => ⟨s, a, handled.mono longer, asks⟩
      · exact fun p m ⟨s, fd, a, handled, rest⟩ => ⟨s, fd, a, handled.mono longer, rest⟩

/-- In every run the time stamps of the clock, unless there are none, are those of messages that
belong together: of a Sync and its Follow_Up, and of a request that a port sent and its answer.

Proof: the run is the witness of what came and what was sent. The half of a pair and the requests
that a port keeps are messages of the run, and time stamps are only taken from a pair or from a
request with an answer that names it. -/
theorem measured_exchanges (c : Clock) (start : StartUp) (events : List PollStep) :
    let tsp := (events.foldl (pollStep c) (start.state c)).clock.tsproc
    (tsp.t1 = 0 ∧ tsp.t2 = 0 ∨ Downward c (Came c start events) tsp) ∧
      (tsp.t3 = 0 ∧ tsp.t4 = 0 ∨ Upward c (Sent c start events) (Came c start events) tsp) := by
  have sourced : Sourced c (Sent c start events) (Came c start events)
      (events.foldl (pollStep c) (start.state c)).clock := sourced_run events
  exact ⟨sourced.down, sourced.up⟩

end Runs

end LinuxPtp
