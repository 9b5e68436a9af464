import LinuxPtp.StepEffects

/-!
# Steps that keep no message

Most of what a port does keeps no further request, answer, Sync or Follow_Up, and leaves the time
stamps of the clock alone.

What is kept is compared port by port by inclusion: a step that takes a request off a list or
clears a slot is as calm as one that does nothing. The handlers that are not calm are those that
keep a message or put in time stamps; they are left to the modules that follow.
-/

namespace LinuxPtp

/-! ## Changes that keep no message -/

/-- A port keeps no message that it did not keep before. -/
structure Lessens (old new : Port) : Prop where
  requests : new.delayReq ⊆ old.delayReq
  peers : ∀ slot, new.peerDelay slot = old.peerDelay slot ∨ new.peerDelay slot = none
  last : new.syfu = old.syfu ∧ new.lastSyncfup = old.lastSyncfup ∨ new.syfu = .empty

/-- A port that is left alone keeps what it kept. -/
protected theorem Lessens.refl (port : Port) : Lessens port port :=
  ⟨List.Subset.refl _, fun _ => Or.inl rfl, Or.inl ⟨rfl, rfl⟩⟩

/-- What is kept after two changes was kept before the first one. A slot that the second change
leaves alone is judged by the first. -/
theorem Lessens.trans {old port new : Port} (first : Lessens old port)
    (second : Lessens port new) : Lessens old new where
  requests := List.Subset.trans second.requests first.requests
  peers := by
    intro slot
    rcases second.peers slot with same | none
    · rw [same]
      exact first.peers slot
    · exact Or.inr none
  last := by
    rcases second.last with ⟨syfu, last⟩ | empty
    · rw [syfu, last]
      exact first.last
    · exact Or.inr empty

/-- No port keeps more, and the time stamps stay. -/
structure Calm (s t : ClockState) : Prop where
  ports : ∀ p, Lessens (s.ports p) (t.ports p)
  tsproc : t.tsproc = s.tsproc

section Calming

variable {c : Clock} {a : Answers} {s t u : ClockState} {p : Nat}

/-- Calm steps one after the other are calm. -/
theorem Calm.trans (first : Calm s t) (second : Calm t u) : Calm s u where
  ports p := (first.ports p).trans (second.ports p)
  tsproc := second.tsproc.trans first.tsproc

/-- Changes elsewhere than in the ports. -/
theorem calm_clock (ports : t.ports = s.ports) (tsproc : t.tsproc = s.tsproc) : Calm s t where
  ports p := by
    rw [ports]
    exact Lessens.refl _
  tsproc := tsproc

/-- Nothing at all happens. -/
protected theorem Calm.refl (s : ClockState) : Calm s s := calm_clock rfl rfl

/-- One port is written. The others are the same functions at other places, so only the new port has
to be compared. -/
theorem calm_update {port : Port} (ports : t.ports = Function.update s.ports p port)
    (lessens : Lessens (s.ports p) port) (tsproc : t.tsproc = s.tsproc) : Calm s t where
  ports q := by
    rw [ports]
    by_cases here : q = p
    · subst here
      rw [Function.update_self]
      exact lessens
    · rw [Function.update_of_ne here]
      exact Lessens.refl _
  tsproc := tsproc

/-- One port is changed by a function that keeps no more of any port. -/
theorem calm_withPort {change : Port → Port} (lessens : ∀ port, Lessens port (change port)) :
    Calm s (s.withPort p change) := calm_update rfl (lessens _) rfl

/-- Changes of a port that leave the messages. -/
theorem calm_port {change : Port → Port} (same : ∀ port, (change port).delayReq = port.delayReq ∧
    (change port).peerDelay = port.peerDelay ∧ (change port).syfu = port.syfu ∧
    (change port).lastSyncfup = port.lastSyncfup) : Calm s (s.withPort p change) := by
  apply calm_withPort
  intro port
  obtain ⟨requests, peers, syfu, last⟩ := same port
  exact ⟨fun _ => requests ▸ id, fun slot => Or.inl (congrFun peers slot), Or.inl ⟨syfu, last⟩⟩

/-- What is measured of a running port holds no message. -/
theorem calm_running (change : PortRunning → PortRunning) : Calm s (s.withRunning p change) :=
  calm_port fun _ => ⟨rfl, rfl, rfl, rfl⟩

/-- A timer is set. -/
theorem calm_setTmo (fd : Descriptor) : Calm s (setTmo p fd s) := calm_running _

/-- A timer is cleared. -/
theorem calm_clrTmo (fd : Descriptor) : Calm s (clrTmo p fd s) := calm_running _

/-- An answer is asked for, which only moves the count of the questions. -/
theorem calm_ask : Calm s s.ask := calm_clock rfl rfl

/-- A message is written into a buffer that no port keeps. -/
theorem calm_scratch (msg : PtpMessage) : Calm s (s.scratch msg) := calm_clock rfl rfl

/-- A buffer is taken from the pool. It is the hand's and no port's. -/
theorem calm_obtain (msg : PtpMessage) : Calm s (s.obtain msg).2 := calm_clock rfl rfl

/-- A buffer is given back to the pool. -/
theorem calm_release (cell : Nat) : Calm s (s.release cell) := calm_clock rfl rfl

/-- A loop of which every round keeps no more. -/
theorem Calm.foldl {α : Type} {step : ClockState → α → ClockState}
    (each : ∀ s item, Calm s (step s item)) (items : List α) (s : ClockState) :
    Calm s (items.foldl step s) := by
  induction items generalizing s with
  | nil => exact Calm.refl s
  | cons item rest inductionHypothesis => exact (each s item).trans (inductionHypothesis _)

/-! ### What is dropped -/

/-- The half of a pair is given back; the port may still name it until it says otherwise. -/
theorem calm_putLast : Calm s (putLast p s) := by
  obtain ⟨_, same⟩ := putLast_state p s
  rw [same]
  exact calm_update rfl ⟨List.Subset.refl _, fun _ => Or.inl rfl, Or.inr rfl⟩ rfl

/-- The half of a pair is given up, so afterwards there is none. -/
theorem calm_flushLastSync : Calm s (flushLastSync p s) := by
  unfold flushLastSync
  split
  · exact calm_putLast
  · exact Calm.refl s

/-- One request is taken off the list. -/
theorem calm_dropDelayReq (m : Stored) : Calm s (dropDelayReq p m s) := by
  have put : Calm s (s.put m.cell) := calm_clock rfl rfl
  apply put.trans
  apply calm_withPort
  intro port
  exact ⟨fun _ => List.mem_of_mem_erase, fun _ => Or.inl rfl, Or.inl ⟨rfl, rfl⟩⟩

/-- All requests are taken off the list, one by one. -/
theorem calm_flushDelayReq : Calm s (flushDelayReq p s) :=
  Calm.foldl (fun _ => calm_dropDelayReq) _ s

/-- Requests that are too old are taken off the list. -/
theorem calm_delayReqPrune : Calm s (delayReqPrune a p s) :=
  Calm.foldl (fun _ => calm_dropDelayReq) _ s

/-- A slot of the peer delay is cleared. -/
theorem calm_dropPeerDelay (slot : PeerSlot) : Calm s (dropPeerDelay slot p s) := by
  obtain ⟨_, same⟩ := dropPeerDelay_state slot p s
  rw [same]
  refine calm_update rfl ⟨List.Subset.refl _, ?_, Or.inl ⟨rfl, rfl⟩⟩ rfl
  intro other
  by_cases here : other = slot
  · subst here
    exact Or.inr (Function.update_self ..)
  · exact Or.inl (Function.update_of_ne here ..)

/-- All three slots of the peer delay are cleared. -/
theorem calm_flushPeerDelay : Calm s (flushPeerDelay p s) :=
  ((calm_dropPeerDelay .req).trans (calm_dropPeerDelay .resp)).trans (calm_dropPeerDelay .fup)

/-- What a port gives up on a fault or on leaving its state: it only clears. -/
theorem calm_abandon : Calm s (abandon p s) := by
  obtain ⟨_, same⟩ := abandon_state p s
  rw [same]
  exact calm_update rfl ⟨List.Subset.refl _, fun _ => Or.inl rfl, Or.inl ⟨rfl, rfl⟩⟩ rfl

/-- A port that is disabled clears all that it kept. -/
theorem calm_portDisable : Calm s (portDisable p s) := by
  rw [portDisable_eq]
  exact (((calm_flushLastSync.trans calm_flushDelayReq).trans calm_flushPeerDelay).trans
    calm_abandon).trans (calm_running _)

/-! ### The dispatch -/

/-- An event is put to the state machine. The transition is told apart from what the port does on
it, which comes later. -/
theorem calm_attempt (event : FsmEvent) (mdiff : Bool) : Calm s (attempt c a p event mdiff s) := by
  have disabled : Calm s
      (if (updateOf c a p event mdiff s).disabled then portDisable p s.ask else s.ask) := by
    split
    · exact calm_ask.trans calm_portDisable
    · exact calm_ask
  unfold attempt
  dsimp only
  split
  · unfold portInitialize
    exact (disabled.trans (calm_port (by simp))).trans (calm_running _)
  · exact disabled

/-- The state machine and the initialisation of a port that leaves its fault. The initialisation
flushes and then arms timers. -/
theorem calm_portUpdate (event : FsmEvent) (mdiff : Bool) :
    Calm s (portUpdate c a p event mdiff s).2 := by
  have attempted : Calm s (attempt c a p event mdiff s) := calm_attempt event mdiff
  rw [portUpdate_eq]
  split
  · exact attempted
  · exact (attempted.trans (calm_port (by simp))).trans (calm_scratch _)

/-- All timers of a port are cleared. -/
theorem calm_clrTimers : Calm s (clrTimers p s) := Calm.foldl (fun _ => calm_clrTmo) _ s

/-- The end to end transition arms and clears timers and flushes the half of a pair where a port
stops following a master. -/
theorem calm_portE2eTransition (next : PortState) : Calm s (portE2eTransition p next s) := by
  have cleared : Calm s (clrTmo p .delayTimer (clrTimers p s)) :=
    calm_clrTimers.trans (calm_clrTmo _)
  unfold portE2eTransition
  apply cleared.trans
  split
  · exact Calm.refl _
  · exact calm_portDisable
  · exact calm_portDisable
  · exact calm_setTmo _
  · exact calm_setTmo _
  · exact calm_setTmo _
  · exact (calm_setTmo _).trans (calm_setTmo _)
  · exact (calm_setTmo _).trans (calm_setTmo _)
  · exact ((calm_flushLastSync.trans calm_flushDelayReq).trans (calm_setTmo _)).trans
      (calm_setTmo _)
  · exact (calm_setTmo _).trans (calm_setTmo _)

/-- The peer to peer transition does the same with other timers. -/
theorem calm_portP2pTransition (next : PortState) : Calm s (portP2pTransition p next s) := by
  unfold portP2pTransition
  apply calm_clrTimers.trans
  split
  · exact Calm.refl _
  · exact calm_portDisable
  · exact calm_portDisable
  · exact (calm_setTmo _).trans (calm_setTmo _)
  · exact calm_setTmo _
  · exact (calm_setTmo _).trans (calm_setTmo _)
  · exact (calm_setTmo _).trans (calm_setTmo _)
  · exact calm_setTmo _
  · exact calm_setTmo _
  · exact (calm_flushLastSync.trans calm_flushPeerDelay).trans (calm_setTmo _)

/-- A port of a transparent clock sets or clears its timers, and flushes if it has to. -/
theorem calm_tcTransition (flush : Bool) (next : PortState) :
    Calm s (tcTransition flush p next s) := by
  unfold tcTransition
  apply calm_clrTimers.trans
  split
  · exact Calm.refl _
  · exact Calm.refl _
  · exact Calm.refl _
  · exact calm_portDisable
  · exact calm_portDisable
  · exact (calm_setTmo _).trans (calm_setTmo _)
  · exact calm_setTmo _
  · exact calm_setTmo _
  · exact calm_setTmo _
  · dsimp only
    split
    · exact (calm_flushLastSync.trans calm_flushDelayReq).trans (calm_setTmo _)
    · exact calm_setTmo _

/-- A port of an ordinary or boundary clock: first the state machine, then the transition of its
delay mechanism if the state has changed. -/
theorem calm_bcTransition (event : FsmEvent) (mdiff : Bool) :
    Calm s (bcTransition c a p event mdiff s).2 := by
  have updated : Calm s (portUpdate c a p event mdiff s).2 := calm_portUpdate event mdiff
  rw [bcTransition_eq]
  dsimp only
  split
  · exact updated
  split
  · exact updated.trans (calm_portP2pTransition _)
  · exact updated.trans (calm_portE2eTransition _)

/-- Another physical clock is used, whether or not the switch succeeds. -/
theorem calm_clockSwitchPhc : Calm s (clockSwitchPhc a p s).2 := by
  unfold clockSwitchPhc
  split
  · exact calm_clock rfl rfl
  · exact calm_ask

/-- The type of the latest fault is written down. -/
theorem calm_withFaultType (type : FaultType) : Calm s (withFaultType p type s) :=
  calm_port fun _ => ⟨rfl, rfl, rfl, rfl⟩

/-- Every event that is put to a port, whatever the type of its clock is. -/
theorem calm_portDispatch (event : FsmEvent) (mdiff : Bool) :
    Calm s (portDispatch c a p event mdiff s) := by
  have boundary : Calm s (bcDispatch c a p event mdiff s) := by
    have moved : Calm s (bcTransition c a p event mdiff s).2 := calm_bcTransition event mdiff
    rw [bcDispatch_eq]
    dsimp only
    split
    · split
      · exact moved.trans calm_clockSwitchPhc
      · exact ((moved.trans calm_clockSwitchPhc).trans (calm_withFaultType _)).trans
          (calm_bcTransition _ _)
    · exact moved
  have transparent (flush : Bool) : Calm s (tcDispatch c a flush p event mdiff s) := by
    have updated : Calm s (portUpdate c a p event mdiff s).2 := calm_portUpdate event mdiff
    rw [tcDispatch_eq]
    dsimp only
    split
    · exact updated
    · exact updated.trans (calm_tcTransition flush _)
  unfold portDispatch
  split
  · exact boundary
  · exact boundary
  · exact transparent true
  · exact transparent false

/-- News of a link: the state of the link, the events that follow from it, and the physical clock. -/
theorem calm_portLinkStatus (news : LinkNews) : Calm s (portLinkStatus c a p s news) := by
  have linked (found : LinkStatus) :
      Calm s (s.withPort p fun port => { port with linkStatus := found }) := calm_port (by simp)
  have finished (found : LinkStatus) (t : ClockState) :
      Calm t (if found.up then t else { t with sde := true }) := by
    split
    · exact Calm.refl t
    · exact calm_clock rfl rfl
  obtain ⟨found, switch, same⟩ := portLinkStatus_eq (c := c) (a := a) (s := s) p news
  rw [same]
  apply (linked found).trans
  dsimp only
  split
  · split
    · exact calm_clockSwitchPhc.trans (finished _ _)
    · exact (calm_clockSwitchPhc.trans (calm_withFaultType .switchPhc)).trans
        (calm_portDispatch _ _)
  · exact finished _ _

/-- All news of links that one read of the socket brings. -/
theorem calm_rtnlEvent : Calm s (rtnlEvent c a p s).2 :=
  Calm.foldl (fun _ => calm_portLinkStatus) a.links s

/-! ### Handlers -/

/-- An announce is built in a buffer, sent and given back. -/
theorem calm_portTxAnnounce : Calm s (portTxAnnounce c a p s).2 := by
  unfold portTxAnnounce
  dsimp only
  split
  · exact calm_ask
  · have counted : Calm (s.ask.obtain (announceOf c p s.ask)).2
        ((s.ask.obtain (announceOf c p s.ask)).2.withRunning p fun running =>
          { running with announceSeqnum := running.announceSeqnum + 1 }) := calm_running _
    have began : Calm s (s.ask.obtain (announceOf c p s.ask)).2 := calm_clock rfl rfl
    exact (began.trans counted).trans (calm_clock rfl rfl)

/-- A Follow_Up is built in a buffer, sent and given back. -/
theorem calm_txFollowUp : Calm s (txFollowUp c a p s).2 := by
  unfold txFollowUp
  split
  · exact Calm.refl s
  · exact calm_ask

/-- A Sync is sent, and the Follow_Up after it if the clock is a two-step one. -/
theorem calm_portTxSync : Calm s (portTxSync c a p s).2 := by
  unfold portTxSync
  dsimp only
  split
  · exact calm_ask
  split
  · exact calm_ask
  · have began : Calm s ((s.ask.obtain (c.newMessage p .sync)).2.obtain
        (c.newMessage p .followUp)).2 := calm_clock rfl rfl
    have sent : Calm s (transmit a p (((s.ask.obtain (c.newMessage p .sync)).2.obtain
        (c.newMessage p .followUp)).2.withRunning p fun running =>
          { running with syncSeqnum := running.syncSeqnum + 1 })).2 :=
      (began.trans (calm_running _)).trans calm_ask
    apply sent.trans
    split
    · exact calm_clock rfl rfl
    split
    · exact calm_clock rfl rfl
    · exact calm_txFollowUp.trans (calm_clock rfl rfl)

/-- The status that a network monitor asks for is appended to an answer. -/
theorem calm_netSyncRespAppend : Calm s (netSyncRespAppend c s) := by
  unfold netSyncRespAppend
  split
  · exact Calm.refl s
  split
  · exact Calm.refl s
  split
  · exact Calm.refl s
  · exact calm_clock rfl rfl

/-- A network monitor that asked for a Sync gets one from the port. -/
theorem calm_monitorSync (m : PtpMessage) : Calm s (monitorSync c a p m s).2 := by
  unfold monitorSync
  dsimp only
  exact ((calm_running _).trans calm_portTxSync).trans (calm_running _)

/-- A Delay_Req is answered at once, and nothing of it is kept. -/
theorem calm_processDelayReq (m : Stored) : Calm s (processDelayReq c a p m s).2 := by
  unfold processDelayReq
  dsimp only
  split
  · exact Calm.refl s
  split
  · exact Calm.refl s
  · have obtained : Calm s (s.obtain (c.newMessage p .delayResp)).2 := calm_clock rfl rfl
    have answered : Calm s (if portNsmReply c p m.msg then
        netSyncRespAppend c (s.obtain (c.newMessage p .delayResp)).2
      else (s.obtain (c.newMessage p .delayResp)).2) := by
      split
      · exact obtained.trans calm_netSyncRespAppend
      · exact obtained
    generalize (if portNsmReply c p m.msg then _ else _) = t at answered ⊢
    apply answered.trans
    split
    · exact calm_clock rfl rfl
    · have sent : Calm t (transmit a p t).2 := calm_ask
      apply sent.trans
      split
      · exact (calm_monitorSync m.msg).trans (calm_clock rfl rfl)
      · exact calm_clock rfl rfl

/-- The interval that a master grants is taken over; it changes a timer only. -/
theorem calm_takeDelayInterval (m : PtpMessage) : Calm s (takeDelayInterval p m s) := by
  unfold takeDelayInterval
  split
  · exact Calm.refl s
  split
  · exact Calm.refl s
  split
  · exact Calm.refl s
  · exact (calm_running _).trans (calm_setTmo .delayTimer)

/-- The peer of a link is found out, and its identity kept instead of a message. -/
theorem calm_meetPeer (peer : PortIdentity) : Calm s (meetPeer a p peer s) := by
  unfold meetPeer
  split
  · exact calm_running _
  split
  · exact Calm.refl s
  · exact (calm_running _).trans calm_ask

/-- Another peer than before resets what is known of the link. -/
theorem calm_detectPeer : Calm s (detectPeer p s) := by
  have detected : Calm s (s.withPort p fun port => { port with delayMechanism := .p2p }) :=
    calm_port (by simp)
  unfold detectPeer
  split
  · exact detected.trans (calm_setTmo .delayTimer)
  · exact Calm.refl s

/-- A Pdelay_Req is answered at once, with a Follow_Up if the answer has none. -/
theorem calm_processPdelayReq (m : Stored) : Calm s (processPdelayReq c a p m s).2 := by
  unfold processPdelayReq
  dsimp only
  split
  · exact Calm.refl s
  · apply (calm_detectPeer.trans (calm_meetPeer m.msg.sourcePortIdentity)).trans
    split
    · exact calm_clock rfl rfl
    split
    · exact calm_clock rfl rfl
    · exact calm_clock rfl rfl

/-- A second peer on a link is counted. Whether there were too many is asked elsewhere. -/
theorem calm_countPeers (m : PtpMessage) : Calm s (countPeers p m s) := by
  unfold countPeers
  split
  · exact Calm.refl s
  split
  · exact Calm.refl s
  split
  · exact Calm.refl s
  · exact calm_running _

/-- An announce goes into a record of foreign masters, which is not of what is looked at here. -/
theorem calm_processAnnounce (m : Stored) : Calm s (processAnnounce c a p m s).2 := by
  obtain ⟨_, _, _, _, _, _, _, _, _, same⟩ := announced_processAnnounce (c := c) (a := a) (s := s)
    (p := p) m
  rw [same]
  exact calm_update rfl ⟨List.Subset.refl _, fun _ => Or.inl rfl, Or.inl ⟨rfl, rfl⟩⟩ rfl

/-- The best foreign master of a port is forgotten. -/
theorem calm_clearBest : Calm s (clearBest p s) := by
  obtain ⟨_, _, same⟩ := clearBest_state p s
  rw [same]
  exact calm_update rfl ⟨List.Subset.refl _, fun _ => Or.inl rfl, Or.inl ⟨rfl, rfl⟩⟩ rfl

/-- A management message is answered or acted on. -/
theorem calm_clockManage (m : PtpMessage) : Calm s (clockManage c a p m s).2 := by
  have replied : Calm s ((List.range a.replies).foldl
      (fun s _ => s.scratch (c.newMessage p .management)) s) :=
    Calm.foldl (fun _ _ => calm_scratch _) _ s
  unfold clockManage
  dsimp only
  split
  · exact replied
  next setting _ =>
    split
    · apply replied.trans
      cases setting <;> exact calm_clock rfl rfl
    · exact replied

/-- A message is sent on by one port, from a buffer that it is written into for that. -/
theorem calm_forwardTo (q : Nat) (m : PtpMessage) (p : Nat) :
    Calm s (forwardTo c a q m s p) := by
  unfold forwardTo
  split
  · exact Calm.refl s
  split
  · exact calm_ask
  · exact calm_ask.trans (calm_portDispatch _ _)

/-- A message is sent on by all ports but the one it came from. -/
theorem calm_forwardPass (q : Nat) (m : PtpMessage) : Calm s (forwardPass c a q m s) :=
  Calm.foldl (fun _ => calm_forwardTo q m) _ s

/-- An event message is sent on in two passes. -/
theorem calm_fwdEvent (q : Nat) (m : PtpMessage) : Calm s (fwdEvent c a q m s) :=
  (calm_forwardPass q m).trans (calm_forwardPass q m)

/-- A Sync is sent on, with a Follow_Up of its own if it came without one. -/
theorem calm_fwdSync (q : Nat) (m : PtpMessage) : Calm s (fwdSync c a q m s) := by
  unfold fwdSync
  dsimp only
  split
  · exact (calm_fwdEvent q m).trans (calm_forwardPass q _)
  · exact calm_fwdEvent q m

/-- Announces or Syncs have ceased: the best record is cleared, and the timers are set again. -/
theorem calm_bcTimeout : Calm s (bcTimeout c a p s).2 := by
  have timed : Calm s (delayReqPrune a p (setTmo p .announceTimer (clearBest p s))) :=
    (calm_clearBest.trans (calm_setTmo _)).trans calm_delayReqPrune
  unfold bcTimeout
  dsimp only
  split <;> exact timed

/-- The same at a port of a transparent clock, which sets its timer again. -/
theorem calm_tcTimeout : Calm s (tcTimeout p s).2 := calm_clearBest.trans (calm_setTmo _)

end Calming

end LinuxPtp
