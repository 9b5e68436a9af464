import LinuxPtp.EffectFrames

/-!
# What happens to the ports

While a descriptor is handled, the ports keep their states, their best foreign masters and their
timers, but for the events that are dispatched to some of them on the way. What is to hold of
every port between two events needs to be checked for a dispatch only.

First each handler is shown to step aside, and then the few that dispatch events are sequences of
steps aside and dispatches. An invariant of the ports is kept by a descriptor if every dispatch
that the descriptor admits keeps it.
-/

namespace LinuxPtp

open RefPool

/-! ## What a port keeps -/

/-- What a port keeps as long as nothing is dispatched to it. -/
structure Kept (old new : Port) : Prop where
  state : new.state = old.state
  best : new.best = old.best
  addresses : old.addresses ⊆ new.addresses
  mechanism : new.delayMechanism = old.delayMechanism ∨
    old.delayMechanism = .auto ∧ new.delayMechanism = .p2p ∧ new.running.timers .delayTimer
  timers : ∀ fd, old.running.timers fd → new.running.timers fd

/-- A port that is left alone. -/
theorem Kept.refl (port : Port) : Kept port port :=
  ⟨rfl, rfl, List.Subset.refl _, Or.inl rfl, fun _ => id⟩

/-- Two changes one after the other. The mechanism can change once only: a port that measures peers
is not of the automatic kind any more. -/
theorem Kept.trans {old port new : Port} (first : Kept old port) (second : Kept port new) :
    Kept old new where
  state := second.state.trans first.state
  best := second.best.trans first.best
  addresses := List.Subset.trans first.addresses second.addresses
  mechanism := by
    rcases second.mechanism with same | ⟨auto, peers, armed⟩
    · rcases first.mechanism with before | ⟨auto, peers, armed⟩
      · exact Or.inl (same.trans before)
      · exact Or.inr ⟨auto, same.trans peers, second.timers _ armed⟩
    · rcases first.mechanism with before | ⟨_, impossible, _⟩
      · exact Or.inr ⟨before ▸ auto, peers, armed⟩
      · rw [auto] at impossible
        cases impossible
  timers := fun fd armed => second.timers fd (first.timers fd armed)

/-- Changes that are of no account here. -/
theorem Kept.minor {port : Port} (running : PortRunning) (syfu : SyfuState)
    (lastSyncfup : Option Stored) (delayReq : List Stored) (peerDelay : PeerSlot → Option Stored)
    (lastFaultType : FaultType) (linkStatus : LinkStatus)
    (timers : ∀ fd, port.running.timers fd → running.timers fd) :
    Kept port { port with
      running := running, syfu := syfu, lastSyncfup := lastSyncfup, delayReq := delayReq
      peerDelay := peerDelay, lastFaultType := lastFaultType, linkStatus := linkStatus } :=
  ⟨rfl, rfl, List.Subset.refl _, Or.inl rfl, timers⟩

/-- Nothing is dispatched to any port. -/
def Aside (s t : ClockState) : Prop := ∀ q, Kept (s.ports q) (t.ports q)

section Aside

variable {s t u : ClockState} {p : Nat}

/-- Whatever changes outside the ports. -/
theorem Aside.of_ports (same : t.ports = s.ports) : Aside s t := by
  intro q
  rw [same]
  exact Kept.refl _

/-- Nothing happens. -/
protected theorem Aside.refl (s : ClockState) : Aside s s := Aside.of_ports rfl

/-- Two steps aside one after the other, port by port. -/
theorem Aside.trans (first : Aside s t) (second : Aside t u) : Aside s u :=
  fun q => (first q).trans (second q)

/-- Something else than the ports changes first. -/
theorem Aside.behind (second : Aside t u) (same : t.ports = s.ports) : Aside s u :=
  (Aside.of_ports same).trans second

/-- Only one port changes. -/
theorem Aside.port {new : Port} (same : t.ports = Function.update s.ports p new)
    (kept : Kept (s.ports p) new) : Aside s t := by
  intro q
  rw [same]
  by_cases here : q = p
  · subst here
    rw [Function.update_self]
    exact kept
  · rw [Function.update_of_ne here]
    exact Kept.refl _

/-- One port is changed by a function that keeps what counts. -/
theorem aside_withPort {change : Port → Port} (kept : Kept (s.ports p) (change (s.ports p))) :
    Aside s (s.withPort p change) := Aside.port rfl kept

/-- What a port keeps for its own running may change but for the timers. -/
theorem aside_running {change : PortRunning → PortRunning}
    (timers : ∀ fd, (s.ports p).running.timers fd →
      (change (s.ports p).running).timers fd) : Aside s (s.withRunning p change) :=
  aside_withPort (Kept.minor _ _ _ _ _ _ _ timers)

/-- A timer is set, and no other timer is touched. -/
theorem aside_setTmo (fd : Descriptor) : Aside s (setTmo p fd s) := by
  apply aside_running
  intro other armed
  by_cases same : other = fd
  · subst same
    exact Function.update_self ..
  · dsimp only
    rw [Function.update_of_ne same]
    exact armed

/-- The timer that is set is armed afterwards. -/
theorem setTmo_armed (fd : Descriptor) : ((setTmo p fd s).ports p).running.timers fd = true := by
  unfold setTmo
  rw [withRunning_same]
  exact Function.update_self ..

/-- A list of steps aside, by induction on the list. -/
theorem Aside.foldl {α : Type} {step : ClockState → α → ClockState}
    (each : ∀ s item, Aside s (step s item)) (items : List α) (s : ClockState) :
    Aside s (items.foldl step s) := by
  induction items generalizing s with
  | nil => exact Aside.refl s
  | cons item rest inductionHypothesis => exact (each s item).trans (inductionHypothesis _)

/-- The half of a pair is given back. -/
theorem aside_putLast : Aside s (putLast p s) := by
  obtain ⟨_, same⟩ := putLast_state p s
  rw [same]
  exact Aside.port rfl (Kept.minor _ _ _ _ _ _ _ fun _ => id)

/-- The half of a pair is given up. -/
theorem aside_flushLastSync : Aside s (flushLastSync p s) := by
  unfold flushLastSync
  split
  · exact aside_putLast
  · exact Aside.refl s

/-- A request is taken off the list. -/
theorem aside_dropDelayReq (m : Stored) : Aside s (dropDelayReq p m s) :=
  Aside.port rfl (Kept.minor _ _ _ _ _ _ _ fun _ => id)

/-- All requests are taken off the list. -/
theorem aside_flushDelayReq : Aside s (flushDelayReq p s) :=
  Aside.foldl (fun _ m => aside_dropDelayReq m) _ s

/-- A slot of the peer delay is cleared. -/
theorem aside_dropPeerDelay (slot : PeerSlot) : Aside s (dropPeerDelay slot p s) := by
  obtain ⟨_, same⟩ := dropPeerDelay_state slot p s
  rw [same]
  exact Aside.port rfl (Kept.minor _ _ _ _ _ _ _ fun _ => id)

/-- All slots of the peer delay are cleared. -/
theorem aside_flushPeerDelay : Aside s (flushPeerDelay p s) :=
  ((aside_dropPeerDelay .req).trans (aside_dropPeerDelay .resp)).trans (aside_dropPeerDelay .fup)

end Aside

/-! ## Updates -/

section Updates

variable {c : Clock} {a : Answers} {s : ClockState} {p : Nat} {event : FsmEvent} {mdiff : Bool}

/-- An attempt at initialisation is made for a fault that is cleared at once, or if the state
machine leads there. -/
def Attempts (c : Clock) (p : Nat) (event : FsmEvent) (mdiff : Bool) (s : ClockState) : Prop :=
  c.machine (s.ports p).state event mdiff = .faulty ∧
      clearFaultAsap ((c.setup p).faultInterval (s.ports p).lastFaultType) ∨
    c.machine (s.ports p).state event mdiff = .initializing

variable (c a p event mdiff s) in
/-- The state machine is followed, or initialisation attempted, which ends LISTENING or FAULTY. -/
theorem updateOf_cases : updateOf c a p event mdiff s =
      { next := c.machine (s.ports p).state event mdiff } ∨
    Attempts c p event mdiff s ∧ updateOf c a p event mdiff s =
      { next := if a.starts p s.asked then .listening else .faulty
        disabled := portIsEnabled (s.ports p).state
        initialized := true } := by
  unfold Attempts updateOf portStateUpdate
  dsimp only
  by_cases cleared : c.machine (s.ports p).state event mdiff = .faulty ∧
      clearFaultAsap ((c.setup p).faultInterval (s.ports p).lastFaultType)
  · rw [if_pos cleared, cleared.1, machine_faultCleared, if_pos rfl, machine_initializing]
    exact Or.inr ⟨Or.inl ⟨rfl, cleared.2⟩, rfl⟩
  · rw [if_neg cleared]
    by_cases initializing : c.machine (s.ports p).state event mdiff = .initializing
    · rw [if_pos initializing, initializing, machine_initializing]
      exact Or.inr ⟨Or.inr rfl, rfl⟩
    · rw [if_neg initializing]
      exact Or.inl rfl

/-- An update to a state that is neither LISTENING nor FAULTY makes no such attempt. -/
theorem updateOf_direct (heard : (updateOf c a p event mdiff s).next ≠ .listening)
    (sound : (updateOf c a p event mdiff s).next ≠ .faulty) :
    updateOf c a p event mdiff s = { next := c.machine (s.ports p).state event mdiff } := by
  rcases updateOf_cases c a s p event mdiff with direct | ⟨_, attempted⟩
  · exact direct
  · rw [attempted] at heard sound
    cases starts : a.starts p s.asked
    · rw [starts] at sound
      exact absurd rfl sound
    · rw [starts] at heard
      exact absurd rfl heard

/-- An event that is put to one port writes no other port. -/
theorem portDispatch_elsewhere {q : Nat} (differ : q ≠ p) (event : FsmEvent) (mdiff : Bool) :
    (portDispatch c a p event mdiff s).ports q = s.ports q := by
  obtain ⟨_, _, _, _, _, frame⟩ := (portDispatch_touches c a p event mdiff s).frame
  rw [frame]
  exact Function.update_of_ne differ ..

/-- A slave only clock never comes to be passive or about to be master, whatever is put to it. The
other states are left aside, since it can come to them. -/
theorem machine_unused {state unused : PortState} (slaveOnly : c.slaveOnly)
    (never : unused = .passive ∨ unused = .preMaster)
    (led : c.machine state event mdiff = unused) : state = unused := by
  unfold Clock.machine at led
  rw [if_pos slaveOnly] at led
  rcases never with rfl | rfl
  · cases state <;> cases event <;> cases mdiff <;> simp_all [ptpSlaveFsm]
  · cases state <;> cases event <;> cases mdiff <;> simp_all [ptpSlaveFsm]

/-- No port of a slave only clock becomes PASSIVE or PRE_MASTER. -/
theorem portDispatch_unused {unused : PortState} (slaveOnly : c.slaveOnly)
    (never : unused = .passive ∨ unused = .preMaster) (before : (s.ports p).state ≠ unused) :
    ((portDispatch c a p event mdiff s).ports p).state ≠ unused := by
  intro led
  have other : unused ≠ .listening ∧ unused ≠ .faulty := by
    rcases never with rfl | rfl
    · exact ⟨nofun, nofun⟩
    · exact ⟨nofun, nofun⟩
  rcases portDispatch_state c a p event mdiff s with same | ⟨_, faulty | listening⟩
  · have direct : updateOf c a p event mdiff s =
        { next := c.machine (s.ports p).state event mdiff } := by
      apply updateOf_direct
      · rw [← same, led]
        exact other.1
      · rw [← same, led]
        exact other.2
    rw [same, direct] at led
    exact before (machine_unused slaveOnly never led)
  · exact other.2 (led.symm.trans faulty)
  · exact other.1 (led.symm.trans listening)

end Updates

/-! ## Handlers -/

section Handlers

variable {c : Clock} {a : Answers} {s : ClockState} {p : Nat}

/-- An announce is sent. -/
theorem aside_portTxAnnounce : Aside s (portTxAnnounce c a p s).2 := by
  unfold portTxAnnounce
  dsimp only
  split
  · exact Aside.of_ports rfl
  · exact Aside.port rfl (Kept.minor _ _ _ _ _ _ _ fun _ => id)

/-- A Follow_Up is sent. -/
theorem aside_txFollowUp : Aside s (txFollowUp c a p s).2 := by
  unfold txFollowUp
  split <;> exact Aside.of_ports rfl

/-- A Sync is sent. -/
theorem aside_portTxSync : Aside s (portTxSync c a p s).2 := by
  unfold portTxSync
  dsimp only
  split
  · exact Aside.of_ports rfl
  split
  · exact Aside.of_ports rfl
  · have sent : Aside s (transmit a p (((s.ask.obtain (c.newMessage p .sync)).2.obtain
        (c.newMessage p .followUp)).2.withRunning p fun running =>
          { running with syncSeqnum := running.syncSeqnum + 1 })).2 :=
      Aside.port rfl (Kept.minor _ _ _ _ _ _ _ fun _ => id)
    apply sent.trans
    split
    · exact Aside.of_ports rfl
    split
    · exact Aside.of_ports rfl
    · exact Aside.trans aside_txFollowUp (Aside.of_ports rfl)

/-- Requests that are too old are taken off the list. -/
theorem aside_delayReqPrune : Aside s (delayReqPrune a p s) :=
  Aside.foldl (fun _ m => aside_dropDelayReq m) _ s

/-- A request is sent and kept. -/
theorem aside_sendRequest (m : Stored) : Aside s (sendRequest a p m s).2 := by
  unfold sendRequest
  split <;> exact Aside.of_ports rfl

/-- A Pdelay_Req is sent in place of the one before. -/
theorem aside_portPdelayRequest : Aside s (portPdelayRequest c a p s).2 := by
  unfold portPdelayRequest
  dsimp only
  generalize began : s.withRunning p _ = t
  have before : Aside s t := by
    rw [← began]
    exact aside_running fun _ => id
  apply before.trans
  generalize { c.newMessage p .pdelayReq with
    correction := -(c.setup p).asymmetry
    sequenceId := (t.ports p).running.delayreqSeqnum - 1 } = msg
  have sent : Aside t (sendRequest a p (t.obtain msg).1 (t.obtain msg).2).2 :=
    (aside_sendRequest _).behind rfl
  generalize sendRequest a p (t.obtain msg).1 (t.obtain msg).2 = result at sent ⊢
  obtain ⟨outcome, u⟩ := result
  apply sent.trans
  cases outcome with
  | none => exact Aside.refl u
  | some m =>
    apply (aside_dropPeerDelay .req).trans
    exact Aside.port rfl (Kept.minor _ _ _ _ _ _ _ fun _ => id)

/-- A delay request that was sent is kept. -/
theorem aside_keepDelayReq {t : ClockState} (m : Stored) (before : Aside s t) :
    Aside s (match sendRequest a p m t with
      | (none, s) => (true, s)
      | (some m, s) => (false, (s.handOver m.cell).withPort p fun port =>
          { port with delayReq := m :: port.delayReq })).2 := by
  have sent : Aside t (sendRequest a p m t).2 := aside_sendRequest m
  generalize sendRequest a p m t = result at sent ⊢
  obtain ⟨outcome, u⟩ := result
  apply (before.trans sent).trans
  cases outcome with
  | none => exact Aside.refl u
  | some m => exact Aside.port rfl (Kept.minor _ _ _ _ _ _ _ fun _ => id)

/-- A Delay_Req is sent, or a Pdelay_Req at a port that measures peers. -/
theorem aside_portDelayRequest : Aside s (portDelayRequest c a p s).2 := by
  have dropped : Aside s (dropPeerDelay .fup p (dropPeerDelay .resp p s)) :=
    (aside_dropPeerDelay .resp).trans (aside_dropPeerDelay .fup)
  unfold portDelayRequest
  dsimp only
  generalize dropPeerDelay .fup p (dropPeerDelay .resp p s) = t at dropped ⊢
  apply dropped.trans
  split
  · exact aside_portPdelayRequest
  · have counted : Aside t (t.withRunning p fun running =>
        { running with delayreqSeqnum := running.delayreqSeqnum + 1 }) :=
      aside_running fun _ => id
    apply counted.trans
    apply aside_keepDelayReq
    split <;> exact Aside.of_ports rfl

/-- The status for a network monitor reads the best port and writes none. -/
theorem aside_netSyncRespAppend : Aside s (netSyncRespAppend c s) := by
  unfold netSyncRespAppend
  split
  · exact Aside.refl s
  · split
    · exact Aside.refl s
    split <;> exact Aside.of_ports rfl

/-- A network monitor gets its Sync. -/
theorem aside_monitorSync (m : PtpMessage) : Aside s (monitorSync c a p m s).2 := by
  have before : Aside s (s.withRunning p fun running =>
      { running with syncSeqnum := m.sequenceId }) := aside_running fun _ => id
  unfold monitorSync
  dsimp only
  exact (before.trans aside_portTxSync).trans (aside_running fun _ => id)

/-- A Delay_Req is answered. -/
theorem aside_processDelayReq (m : Stored) : Aside s (processDelayReq c a p m s).2 := by
  unfold processDelayReq
  dsimp only
  split
  · exact Aside.refl s
  split
  · exact Aside.refl s
  · have answered : Aside s (if portNsmReply c p m.msg then
        netSyncRespAppend c (s.obtain (c.newMessage p .delayResp)).2
      else (s.obtain (c.newMessage p .delayResp)).2) := by
      split
      · exact aside_netSyncRespAppend.behind rfl
      · exact Aside.of_ports rfl
    generalize (if portNsmReply c p m.msg then _ else _) = t at answered ⊢
    apply answered.trans
    split
    · exact Aside.of_ports rfl
    · have sent : Aside t (transmit a p t).2 := Aside.of_ports rfl
      apply sent.trans
      split
      · exact (aside_monitorSync m.msg).trans (Aside.of_ports rfl)
      · exact Aside.of_ports rfl

/-- The interval that a master grants is taken over: a field for the running of the port. -/
theorem aside_takeDelayInterval (m : PtpMessage) : Aside s (takeDelayInterval p m s) := by
  unfold takeDelayInterval
  split
  · exact Aside.refl s
  split
  · exact Aside.refl s
  split
  · exact Aside.refl s
  · exact Aside.trans (aside_running fun _ => id) (aside_setTmo .delayTimer)

/-- A request is used up by its answer. -/
theorem aside_processDelayResp (m : Stored) : Aside s (processDelayResp c p m s) := by
  unfold processDelayResp
  split
  · exact Aside.refl s
  split
  · exact Aside.refl s
  split
  · exact Aside.refl s
  split
  · exact Aside.refl s
  next req _ =>
    obtain ⟨_, _, _, _, _, timed⟩ := timed_clockPathDelay (s := s) p req.msg.hwts
      (m.msg.pdu - correctionToTmv m.msg.correction) m.msg.sourcePortIdentity
    have measured : Aside s (clockPathDelay p req.msg.hwts
        (m.msg.pdu - correctionToTmv m.msg.correction) m.msg.sourcePortIdentity s) := by
      rw [timed]
      exact Aside.of_ports rfl
    exact (measured.trans (aside_dropDelayReq req)).trans (aside_takeDelayInterval m.msg)

/-- The identity of a peer is kept. -/
theorem aside_meetPeer (peer : PortIdentity) : Aside s (meetPeer a p peer s) := by
  unfold meetPeer
  split
  · exact aside_running fun _ => id
  split
  · exact Aside.refl s
  · exact Aside.port rfl (Kept.minor _ _ _ _ _ _ _ fun _ => id)

/-- A port that goes over to the peer delay mechanism has its delay timer set. -/
theorem aside_detectPeer : Aside s (detectPeer p s) := by
  unfold detectPeer
  split
  next auto =>
    have timed : Aside s (setTmo p .delayTimer s) := aside_setTmo .delayTimer
    have armed := setTmo_armed (s := s) (p := p) .delayTimer
    let new : Port := { (setTmo p .delayTimer s).ports p with delayMechanism := .p2p }
    apply @Aside.port _ _ p new
    · simp [new, setTmo, ClockState.withRunning, ClockState.withPort]
    · obtain ⟨state, best, addresses, _, timers⟩ := timed p
      exact ⟨state, best, addresses, Or.inr ⟨auto, rfl, armed⟩, timers⟩
  next => exact Aside.refl s

/-- A Pdelay_Req is answered. A port of the automatic kind measures peers from then on, and its
timer for requests is armed. -/
theorem aside_processPdelayReq (m : Stored) : Aside s (processPdelayReq c a p m s).2 := by
  unfold processPdelayReq
  dsimp only
  split
  · exact Aside.refl s
  · apply (aside_detectPeer.trans (aside_meetPeer m.msg.sourcePortIdentity)).trans
    split
    · exact Aside.of_ports rfl
    split
    · exact Aside.of_ports rfl
    · exact Aside.of_ports rfl

/-- A peer delay is computed. -/
theorem aside_peerDelayCalc (req rsp : PtpMessage) (t2 : Int) :
    Aside s (peerDelayCalc p req rsp t2 s) := by
  unfold peerDelayCalc
  split
  · exact Aside.refl s
  · dsimp only
    split
    · exact (aside_dropPeerDelay .req).behind rfl
    · exact aside_dropPeerDelay .req

/-- A peer delay is computed if all messages for it are there. -/
theorem aside_portPeerDelay : Aside s (portPeerDelay c p s) := by
  unfold portPeerDelay
  repeat' split
  all_goals first
    | exact Aside.refl s
    | exact aside_peerDelayCalc _ _ _

/-- A message is kept in a slot. -/
theorem aside_keepPeerDelay (slot : PeerSlot) (m : Stored) :
    Aside s (keepPeerDelay slot p m (s.get m.cell)) :=
  Aside.port rfl (Kept.minor _ _ _ _ _ _ _ fun _ => id)

/-- A second peer is counted. That there were too many is a fault of its own. -/
theorem aside_countPeers (m : PtpMessage) : Aside s (countPeers p m s) := by
  unfold countPeers
  split
  · exact Aside.refl s
  split
  · exact Aside.refl s
  split
  · exact Aside.refl s
  · exact aside_running fun _ => id

/-- An answer of a peer is kept. -/
theorem aside_processPdelayResp (m : Stored) : Aside s (processPdelayResp c a p m s).2 := by
  unfold processPdelayResp
  dsimp only
  apply (aside_countPeers m.msg).trans
  split
  · exact Aside.port rfl (Kept.minor _ _ _ _ _ _ _ fun _ => id)
  split
  · exact Aside.refl _
  · apply (aside_meetPeer m.msg.sourcePortIdentity).trans
    exact ((aside_dropPeerDelay .resp).trans (aside_keepPeerDelay .resp m)).trans
      aside_portPeerDelay

/-- A Follow_Up of a peer is kept. -/
theorem aside_processPdelayRespFup (m : Stored) : Aside s (processPdelayRespFup c p m s) := by
  unfold processPdelayRespFup
  split
  · exact Aside.refl s
  · exact ((aside_dropPeerDelay .fup).trans (aside_keepPeerDelay .fup m)).trans aside_portPeerDelay

end Handlers

/-! ## Announces -/

section Announces

variable {c : Clock} {a : Answers} {s : ClockState} {p : Nat}

/-- A record put back into its place. -/
theorem Kept.withForeign {port : Port} (fc : ForeignClock) : Kept port (port.withForeign fc) := by
  refine ⟨rfl, rfl, ?_, Or.inl rfl, fun _ => id⟩
  rw [withForeign_addresses]
  exact List.Subset.refl _

/-- An announce goes into a record, so that a port has its records and perhaps one more. -/
theorem aside_insert (now : Int) (fc : ForeignClock) (m : Stored) :
    Aside s (((fcInsert m (fcPrune now fc s).1 (fcPrune now fc s).2).2).withPort p
      (Port.withForeign (fcInsert m (fcPrune now fc s).1 (fcPrune now fc s).2).1)) := by
  obtain ⟨msgs, same⟩ := fcPrune_state now fc s
  unfold fcInsert
  rw [same]
  exact Aside.port rfl (Kept.withForeign _)

/-- A record is found or made, and the announce goes into it. -/
theorem aside_addForeignMaster (m : Stored) : Aside s (addForeignMaster a p m s).2 := by
  unfold addForeignMaster
  split
  · exact Aside.port rfl ⟨rfl, rfl, List.subset_cons_self .., Or.inl rfl, fun _ => id⟩
  next fc _ => exact aside_insert (a.pruned fc.id) fc m

/-- The same for an announce of the best master of the port. -/
theorem aside_updateCurrentMaster (m : Stored) : Aside s (updateCurrentMaster c a p m s).2 := by
  unfold updateCurrentMaster
  split
  · exact Aside.of_ports rfl
  next fc _ =>
    split
    · exact aside_addForeignMaster m
    · dsimp only
      generalize began : setTmo p .announceTimer _ = t
      have before : Aside s t := by
        rw [← began]
        apply (aside_setTmo .announceTimer).behind
        split <;> split <;> rfl
      exact before.trans (aside_insert (a.pruned fc.id) fc m)

/-- An announce is handled. Records are added and none is taken away. -/
theorem aside_processAnnounce (m : Stored) : Aside s (processAnnounce c a p m s).2 := by
  unfold processAnnounce
  split
  · exact Aside.refl s
  split
  · exact Aside.refl s
  · exact Aside.refl s
  · exact Aside.refl s
  all_goals first
    | exact (aside_addForeignMaster m).trans (Aside.of_ports rfl)
    | exact (aside_updateCurrentMaster m).trans (Aside.of_ports rfl)

/-- The announces of the best record are forgotten, the record itself stays. -/
theorem aside_clearBest : Aside s (clearBest p s) := by
  unfold clearBest
  split
  · exact Aside.refl s
  next fc _ =>
    obtain ⟨msgs, same⟩ := fcClear_state fc s
    dsimp only
    rw [same]
    exact Aside.port rfl (Kept.withForeign _)

/-- A management message is handled. -/
theorem aside_clockManage (m : PtpMessage) : Aside s (clockManage c a p m s).2 := by
  have replied : Aside s ((List.range a.replies).foldl
      (fun s _ => s.scratch (c.newMessage p .management)) s) :=
    Aside.foldl (fun s _ => (Aside.of_ports rfl : Aside s (s.scratch _))) _ s
  unfold clockManage
  dsimp only
  split
  · exact replied
  next setting _ =>
    split
    · apply replied.trans
      cases setting <;> exact Aside.of_ports rfl
    · exact replied

end Announces

/-! ## Dispatches on the way -/

section Steps

variable (c : Clock) (a : Answers) (admits : Nat → FsmEvent → ClockState → Prop)

/-- What happens to the ports at once: changes of little account, or an event that is dispatched
to one of them. -/
inductive PortStep : ClockState → ClockState → Prop where
  | aside {s t : ClockState} (kept : Aside s t) : PortStep s t
  | dispatch (s : ClockState) (q : Nat) (event : FsmEvent) (admitted : admits q event s) :
    PortStep s (portDispatch c a q event false s)

/-- What happens to the ports one after another. -/
abbrev PortSteps : ClockState → ClockState → Prop := Relation.ReflTransGen (PortStep c a admits)

/-- The state in which a fault is dispatched for a physical clock that cannot be switched. -/
def linkFault (p : Nat) (s : ClockState) (news : LinkNews) : Option ClockState :=
  let status := (s.ports p).linkStatus
  let status : LinkStatus :=
    { up := news.up, stateChanged := status.up ≠ news.up, tsLabelChanged := news.tsLabelChanged }
  let check := status.up && (status.stateChanged || status.tsLabelChanged)
  if check && news.clock = .switched then
    let s := s.withPort p fun port => { port with linkStatus := status }
    let (switched, s) := clockSwitchPhc a p s
    if switched then none else some (withFaultType p .switchPhc s)
  else none

/-- The events that may be dispatched while a descriptor of a port is handled. -/
structure Admissible (p : Nat) (fd : Descriptor) (s : ClockState) : Prop where
  synchronizes : ∀ t, admits p .synchronizationFault t ∧ admits p .masterClockSelected t
  egress : c.relays → ∀ q t, admits q .faultDetected t
  links : fd = .rtnl → ∀ before news after, a.links = before ++ news :: after →
    ∀ t, linkFault a p (before.foldl (portLinkStatus c a p) s) news = some t →
      admits p .faultDetected t

variable {c a admits} {s t u : ClockState} {p : Nat}

/-- A step aside counts as one. -/
theorem PortSteps.of_aside (kept : Aside s t) : PortSteps c a admits s t :=
  Relation.ReflTransGen.single (.aside kept)

/-- Nothing happens. -/
theorem PortSteps.refl (s : ClockState) : PortSteps c a admits s s := Relation.ReflTransGen.refl

/-- What every dispatch that is admitted and all changes of little account keep. -/
theorem PortSteps.keeps {Invariant : ClockState → Prop} (steps : PortSteps c a admits s t)
    (initially : Invariant s) (asides : ∀ s t, Aside s t → Invariant s → Invariant t)
    (dispatches : ∀ s q event, admits q event s → Invariant s →
      Invariant (portDispatch c a q event false s)) : Invariant t := by
  induction steps with
  | refl => exact initially
  | tail _ step inductionHypothesis =>
    cases step with
    | aside kept => exact asides _ _ kept inductionHypothesis
    | dispatch q event admitted => exact dispatches _ q event admitted inductionHypothesis

section Synchronising

variable (synchronizes : ∀ t, admits p .synchronizationFault t ∧ admits p .masterClockSelected t)

include synchronizes

/-- A sample of the servo, and the one event that its state puts to the port. -/
theorem portSynchronize_steps (ingressTs originTs correction1 correction2 : Int)
    (t1From t2From : PortIdentity) :
    PortSteps c a admits s (portSynchronize c a p ingressTs originTs correction1 correction2
      t1From t2From s) := by
  unfold portSynchronize
  dsimp only
  obtain ⟨_, _, _, _, _, timed⟩ := timed_clockSynchronize (c := c) (a := a)
    (s := setTmo p .syncRxTimer s) p ingressTs
    (originTs + (correctionToTmv correction1 + correctionToTmv correction2)) t1From t2From
  have began : Aside s (clockSynchronize c a p ingressTs
      (originTs + (correctionToTmv correction1 + correctionToTmv correction2)) t1From t2From
      (setTmo p .syncRxTimer s)).2 := by
    rw [timed]
    exact (aside_setTmo .syncRxTimer).trans (Aside.of_ports rfl)
  generalize clockSynchronize c a p ingressTs _ t1From t2From _ = result at began ⊢
  obtain ⟨servo, t⟩ := result
  have steps : PortSteps c a admits s t := PortSteps.of_aside began
  cases servo with
  | unlocked => exact steps.tail (.dispatch t p _ (synchronizes t).1)
  | jump =>
    apply (steps.tail (.dispatch t p _ (synchronizes t).1)).tail
    exact .aside (aside_flushDelayReq.trans (aside_dropPeerDelay .req))
  | locked => exact steps.tail (.dispatch t p _ (synchronizes t).2)

/-- A pair is complete and goes to the servo. -/
theorem completePair_steps (sync fup : PtpMessage) :
    PortSteps c a admits s (completePair c a p sync fup s) := by
  have noted : PortSteps c a admits s (s.note (.paired sync fup)) :=
    PortSteps.of_aside (Aside.of_ports rfl)
  unfold completePair
  exact (noted.trans (portSynchronize_steps synchronizes ..)).tail (.aside aside_putLast)

/-- A Sync or a Follow_Up is kept or completes a pair. -/
theorem portSyfufsm_steps (event : SyfuEvent) (m : Stored) :
    PortSteps c a admits s (portSyfufsm c a p event m s) := by
  have keeps (t : ClockState) (kind : SyfuState) : Aside t (keepLast p kind m t) :=
    Aside.port rfl (Kept.minor _ _ _ _ _ _ _ fun _ => id)
  unfold portSyfufsm
  split
  · exact PortSteps.of_aside (keeps s _)
  · exact PortSteps.of_aside (keeps s _)
  · exact PortSteps.of_aside (aside_putLast.trans (keeps _ _))
  · exact PortSteps.of_aside (aside_putLast.trans (keeps _ _))
  · exact PortSteps.of_aside (aside_putLast.trans (keeps _ _))
  · exact PortSteps.of_aside (aside_putLast.trans (keeps _ _))
  · split
    · exact PortSteps.refl s
    · exact completePair_steps synchronizes _ _
  · split
    · exact PortSteps.refl s
    · exact completePair_steps synchronizes _ _
  all_goals exact PortSteps.refl s

/-- A Follow_Up is handled. -/
theorem processFollowUp_steps (m : Stored) :
    PortSteps c a admits s (processFollowUp c a p m s) := by
  unfold processFollowUp
  split
  · exact PortSteps.refl s
  split
  · exact PortSteps.refl s
  split
  · exact PortSteps.refl s
  split
  · exact portSyfufsm_steps synchronizes _ m
  · exact portSyfufsm_steps synchronizes _ m

/-- A Sync is handled. -/
theorem processSync_steps (m : Stored) : PortSteps c a admits s (processSync c a p m s) := by
  unfold processSync
  split
  · exact PortSteps.refl s
  split
  · exact PortSteps.refl s
  · dsimp only
    generalize began : ClockState.amend _ _ _ = t
    have before : Aside s t := by
      rw [← began]
      exact Aside.port rfl (Kept.minor _ _ _ _ _ _ _ fun _ => id)
    apply (PortSteps.of_aside before).trans
    split
    · exact (portSynchronize_steps synchronizes ..).tail (.aside aside_flushLastSync)
    split
    · exact portSyfufsm_steps synchronizes _ _
    · exact portSyfufsm_steps synchronizes _ _

end Synchronising

/-! ## Reception -/

/-- A message is handled by its type. The faults that it can raise are those that the descriptor
admits. -/
theorem bcProcess_steps {fd : Descriptor} (admitted : Admissible c a admits p fd s) (m : Stored) :
    PortSteps c a admits s (bcProcess c a p m s).2 := by
  have synchronizes := admitted.synchronizes
  unfold bcProcess
  split
  · exact processSync_steps synchronizes m
  · exact PortSteps.of_aside (aside_processDelayReq m)
  · exact PortSteps.of_aside (aside_processPdelayReq m)
  · exact PortSteps.of_aside (aside_processPdelayResp m)
  · exact processFollowUp_steps synchronizes m
  · exact PortSteps.of_aside (aside_processDelayResp m)
  · exact PortSteps.of_aside (aside_processPdelayRespFup m)
  · exact PortSteps.of_aside (aside_processAnnounce m)
  · exact PortSteps.refl s
  · exact PortSteps.of_aside (aside_clockManage m.msg)

/-- The socket is read and the message handled. -/
theorem bcReceive_steps {fd : Descriptor} (admitted : Admissible c a admits p fd s)
    (socket : fd ≠ .rtnl) : PortSteps c a admits s (bcReceive c a p s).2 := by
  unfold bcReceive
  split
  · exact PortSteps.of_aside (Aside.of_ports rfl)
  · exact PortSteps.of_aside (Aside.of_ports rfl)
  next msg received =>
    dsimp only
    have began : Aside s (portCapable a (s.obtain msg).2).2 := Aside.of_ports rfl
    have still : Admissible c a admits p fd (portCapable a (s.obtain msg).2).2 :=
      ⟨admitted.synchronizes, admitted.egress, fun impossible => absurd impossible socket⟩
    generalize processed : (if portIgnore c (portCapable a (s.obtain msg).2).1 p msg = true then
      (FsmEvent.none, (portCapable a (s.obtain msg).2).2) else
      bcProcess c a p (s.obtain msg).1 (portCapable a (s.obtain msg).2).2) = result
    have handled : PortSteps c a admits (portCapable a (s.obtain msg).2).2 result.2 := by
      rw [← processed]
      split
      · exact PortSteps.refl _
      · exact bcProcess_steps still _
    exact ((PortSteps.of_aside began).trans handled).tail (.aside (Aside.of_ports rfl))

/-! ## Forwarding -/

section Relaying

variable (egress : ∀ q t, admits q .faultDetected t)

include egress

/-- A message is sent on by one port, which has a fault if that fails. -/
theorem forwardTo_steps (q : Nat) (m : PtpMessage) :
    PortSteps c a admits s (forwardTo c a q m s p) := by
  have asked : Aside s s.ask := Aside.of_ports rfl
  unfold forwardTo
  split
  · exact PortSteps.refl s
  split
  · exact PortSteps.of_aside asked
  · exact (PortSteps.of_aside asked).tail (.dispatch s.ask p _ (egress p s.ask))

/-- All ports in turn. -/
theorem forwardPass_steps (q : Nat) (m : PtpMessage) :
    PortSteps c a admits s (forwardPass c a q m s) := by
  unfold forwardPass
  generalize c.ports = items
  induction items generalizing s with
  | nil => exact PortSteps.refl s
  | cons p rest inductionHypothesis => exact (forwardTo_steps egress q m).trans inductionHypothesis

/-- An event message goes out in two passes. -/
theorem fwdEvent_steps (q : Nat) (m : PtpMessage) : PortSteps c a admits s (fwdEvent c a q m s) :=
  (forwardPass_steps egress q m).trans (forwardPass_steps egress q m)

/-- A Sync is sent on, with a Follow_Up of its own if it came without one. -/
theorem fwdSync_steps (q : Nat) (m : PtpMessage) : PortSteps c a admits s (fwdSync c a q m s) := by
  unfold fwdSync
  dsimp only
  split
  · exact (fwdEvent_steps egress q m).trans (forwardPass_steps egress q _)
  · exact fwdEvent_steps egress q m

end Relaying

/-- A copy is handled if there is one. -/
theorem PortSteps.copy {t u : ClockState} {dup : Bool} (forwarded : PortSteps c a admits s t)
    (handled : PortSteps c a admits t u) : PortSteps c a admits s (if dup then u else t) := by
  cases dup
  · exact forwarded
  · exact forwarded.trans handled

/-- The same for a handler that has a result. -/
theorem PortSteps.answer {t : ClockState} {dup : Bool} {result other : FsmEvent × ClockState}
    (forwarded : PortSteps c a admits s t) (handled : PortSteps c a admits t result.2)
    (idle : other.2 = t) : PortSteps c a admits s (if dup then result else other).2 := by
  cases dup
  · exact idle ▸ forwarded
  · exact forwarded.trans handled

section Receiving

variable (synchronizes : ∀ t, admits p .synchronizationFault t ∧ admits p .masterClockSelected t)
  (egress : ∀ q t, admits q .faultDetected t)

include synchronizes egress

/-- A message at an end to end transparent clock. -/
theorem e2eProcess_steps (m : Stored) (dup : Bool) :
    PortSteps c a admits s (e2eProcess c a p m dup s).2 := by
  have passed : PortSteps c a admits s (forwardPass c a p m.msg s) :=
    forwardPass_steps egress p m.msg
  unfold e2eProcess
  split
  · exact (fwdSync_steps egress p m.msg).copy (processSync_steps synchronizes m)
  · exact fwdEvent_steps egress p m.msg
  · exact passed.copy (processFollowUp_steps synchronizes m)
  · exact passed.copy (PortSteps.of_aside (aside_processDelayResp m))
  · exact passed.answer (PortSteps.of_aside (aside_processAnnounce m)) rfl
  · exact passed
  · exact passed
  all_goals exact PortSteps.refl s

/-- A message at a peer to peer transparent clock. -/
theorem p2pProcess_steps (m : Stored) (dup : Bool) :
    PortSteps c a admits s (p2pProcess c a p m dup s).2 := by
  have passed : PortSteps c a admits s (forwardPass c a p m.msg s) :=
    forwardPass_steps egress p m.msg
  have still : PortSteps c a admits s s := PortSteps.refl s
  unfold p2pProcess
  split
  · exact (fwdSync_steps egress p m.msg).copy (processSync_steps synchronizes m)
  · exact still.answer (PortSteps.of_aside (aside_processPdelayReq m)) rfl
  · exact still.answer (PortSteps.of_aside (aside_processPdelayResp m)) rfl
  · exact passed.copy (processFollowUp_steps synchronizes m)
  · exact still.copy (PortSteps.of_aside (aside_processPdelayRespFup m))
  · exact passed.answer (PortSteps.of_aside (aside_processAnnounce m)) rfl
  · exact passed
  · exact passed
  all_goals exact PortSteps.refl s

/-- The socket of a transparent clock is read. -/
theorem relayReceive_steps (endToEnd : Bool) :
    PortSteps c a admits s (relayReceive c a endToEnd p s).2 := by
  unfold relayReceive
  split
  · exact PortSteps.of_aside (Aside.of_ports rfl)
  · exact PortSteps.of_aside (Aside.of_ports rfl)
  next msg received =>
    dsimp only
    split
    · exact PortSteps.of_aside (Aside.of_ports rfl)
    · generalize began : (if (!tcIgnore c p msg) = true then (s.obtain msg).2 else
        (s.obtain msg).2.release (s.obtain msg).1.cell) = t
      have before : PortSteps c a admits s t := by
        apply PortSteps.of_aside
        rw [← began]
        split <;> exact Aside.of_ports rfl
      generalize processed : (if endToEnd = true then
        e2eProcess c a p (s.obtain msg).1 (!tcIgnore c p msg) t else
        p2pProcess c a p (s.obtain msg).1 (!tcIgnore c p msg) t) = result
      have handled : PortSteps c a admits t result.2 := by
        rw [← processed]
        split
        · exact e2eProcess_steps synchronizes egress _ _
        · exact p2pProcess_steps synchronizes egress _ _
      refine (before.trans handled).tail (.aside ?_)
      split <;> exact Aside.of_ports rfl

end Receiving

/-! ## The link -/

/-- The link status is noted and a decision called for, or a fault is dispatched. -/
theorem portLinkStatus_steps (news : LinkNews)
    (admitted : ∀ t, linkFault a p s news = some t → admits p .faultDetected t) :
    PortSteps c a admits s (portLinkStatus c a p s news) := by
  have linked (found : LinkStatus) :
      Aside s (s.withPort p fun port => { port with linkStatus := found }) :=
    aside_withPort (Kept.minor _ _ _ _ _ _ _ fun _ => id)
  have switched (t : ClockState) : Aside t (clockSwitchPhc a p t).2 := by
    unfold clockSwitchPhc
    split <;> exact Aside.of_ports rfl
  have finished (up : Bool) (t : ClockState) :
      Aside t (if up then t else { t with sde := true }) := by
    split
    · exact Aside.refl t
    · exact Aside.of_ports rfl
  unfold linkFault at admitted
  unfold portLinkStatus
  dsimp only at admitted ⊢
  split
  next switches =>
    rw [if_pos switches] at admitted
    have same : news.clock = .switched := by
      simp only [Bool.and_eq_true, decide_eq_true_eq] at switches
      exact switches.2
    have supported : ¬news.clock = .unsupported := by
      rw [same]
      nofun
    simp only [supported, decide_false, Bool.and_false, Bool.false_eq_true, if_false]
    split
    next => exact PortSteps.of_aside (((linked _).trans (switched _)).trans (finished _ _))
    next failed =>
      rw [if_neg failed] at admitted
      have faulted (found : LinkStatus) : Aside s (withFaultType p .switchPhc (clockSwitchPhc a p
          (s.withPort p fun port => { port with linkStatus := found })).2) :=
        ((linked found).trans (switched _)).trans
          (aside_withPort (Kept.minor _ _ _ _ _ _ _ fun _ => id))
      exact (PortSteps.of_aside (faulted _)).tail (.dispatch _ p _ (admitted _ rfl))
  next => exact PortSteps.of_aside ((linked _).trans (finished _ _))

/-- News of links, each with the events it puts to the port. -/
theorem rtnlEvent_steps (admitted : Admissible c a admits p .rtnl s) :
    PortSteps c a admits s (rtnlEvent c a p s).2 := by
  have walk : ∀ before after, a.links = before ++ after →
      PortSteps c a admits s (before.foldl (portLinkStatus c a p) s) →
      PortSteps c a admits s
        (after.foldl (portLinkStatus c a p) (before.foldl (portLinkStatus c a p) s)) := by
    intro before after
    induction after generalizing before with
    | nil => exact fun _ steps => steps
    | cons news rest inductionHypothesis =>
      intro split steps
      have step := portLinkStatus_steps (c := c) news
        (admitted.links rfl before news rest split)
      have later := inductionHypothesis (before ++ [news]) (by simp [split])
      rw [List.foldl_append] at later
      exact later (steps.trans step)
  exact walk [] a.links rfl (PortSteps.refl s)

/-! ## Events -/

/-- Announces have ceased: the best record is cleared. The event that follows is put to the port by
the caller. -/
theorem aside_bcTimeout : Aside s (bcTimeout c a p s).2 := by
  have timed : Aside s (delayReqPrune a p (setTmo p .announceTimer (clearBest p s))) :=
    (aside_clearBest.trans (aside_setTmo .announceTimer)).trans aside_delayReqPrune
  unfold bcTimeout
  dsimp only
  split
  · exact timed
  · exact timed

/-- The same at a transparent clock. -/
theorem aside_tcTimeout : Aside s (tcTimeout p s).2 :=
  aside_clearBest.trans (aside_setTmo .announceTimer)

/-- A descriptor of an ordinary or boundary clock, one case for each. -/
theorem bcEvent_steps {fd : Descriptor} (admitted : Admissible c a admits p fd s) :
    PortSteps c a admits s (bcEvent c a p fd s).2 := by
  unfold bcEvent
  split
  · exact PortSteps.of_aside aside_bcTimeout
  · exact PortSteps.of_aside aside_bcTimeout
  · exact PortSteps.of_aside
      (((aside_setTmo .delayTimer).trans aside_delayReqPrune).trans aside_portDelayRequest)
  · exact PortSteps.refl s
  · exact PortSteps.of_aside ((aside_setTmo .mannoTimer).trans aside_portTxAnnounce)
  · exact PortSteps.of_aside ((aside_setTmo .syncTxTimer).trans aside_portTxSync)
  · exact rtnlEvent_steps admitted
  · exact bcReceive_steps admitted nofun
  · exact bcReceive_steps admitted nofun

/-- The timer for requests of an end to end transparent clock. -/
theorem aside_e2eDelayTimer : Aside s (e2eDelayTimer c a p s).2 := by
  have timed : Aside s (delayReqPrune a p (setTmo p .delayTimer s)) :=
    (aside_setTmo .delayTimer).trans aside_delayReqPrune
  unfold e2eDelayTimer
  dsimp only
  split
  · exact timed.trans aside_portDelayRequest
  · exact timed

/-- The timer for requests of a peer to peer transparent clock. -/
theorem aside_p2pDelayTimer : Aside s (p2pDelayTimer c a p s).2 := by
  have timed : Aside s (setTmo p .delayTimer s) := aside_setTmo .delayTimer
  unfold p2pDelayTimer
  dsimp only
  split
  · exact timed.trans aside_portDelayRequest
  · exact timed

/-- A descriptor of an end to end transparent clock, one case for each. -/
theorem e2eEvent_steps {fd : Descriptor} (admitted : Admissible c a admits p fd s)
    (relays : c.relays) : PortSteps c a admits s (e2eEvent c a p fd s).2 := by
  unfold e2eEvent
  split
  · exact PortSteps.of_aside aside_tcTimeout
  · exact PortSteps.of_aside aside_tcTimeout
  · exact PortSteps.of_aside aside_e2eDelayTimer
  · exact PortSteps.refl s
  · exact PortSteps.refl s
  · exact PortSteps.refl s
  · exact rtnlEvent_steps admitted
  · exact relayReceive_steps admitted.synchronizes (admitted.egress relays) true
  · exact relayReceive_steps admitted.synchronizes (admitted.egress relays) true

/-- A descriptor of a peer to peer transparent clock, one case for each. -/
theorem p2pEvent_steps {fd : Descriptor} (admitted : Admissible c a admits p fd s)
    (relays : c.relays) : PortSteps c a admits s (p2pEvent c a p fd s).2 := by
  unfold p2pEvent
  split
  · exact PortSteps.of_aside aside_tcTimeout
  · exact PortSteps.of_aside aside_tcTimeout
  · exact PortSteps.of_aside aside_p2pDelayTimer
  · exact PortSteps.refl s
  · exact PortSteps.refl s
  · exact PortSteps.refl s
  · exact rtnlEvent_steps admitted
  · exact relayReceive_steps admitted.synchronizes (admitted.egress relays) false
  · exact relayReceive_steps admitted.synchronizes (admitted.egress relays) false

/-- What happens to the ports while a descriptor is handled, up to its event. -/
theorem portEvent_steps {fd : Descriptor} (admitted : Admissible c a admits p fd s) :
    PortSteps c a admits s (portEvent c a p fd s).2 := by
  unfold portEvent
  split
  next => exact bcEvent_steps admitted
  next => exact bcEvent_steps admitted
  next type => exact e2eEvent_steps admitted (Or.inl type)
  next type => exact p2pEvent_steps admitted (Or.inr type)

end Steps

end LinuxPtp
