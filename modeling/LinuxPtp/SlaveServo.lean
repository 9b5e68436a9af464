import LinuxPtp.MessageCounts
import LinuxPtp.SlavePorts

/-!
# The servo of a slave port

A port comes to SLAVE when the servo locks and leaves it when the servo does, so that a port that
says it is SLAVE is synchronised. Switching to another physical clock unlocks the servo, which the
port that follows a master learns of at its next Sync only.

The invariant ties the state of each port to that of the servo, and a second one ties a locked
servo to the port of the best master. The first part of the module is frames: of all that a
descriptor does, only a synchronisation and a switch of the physical clock change the state of the
servo.
-/

namespace LinuxPtp

open Runs

/-! ## What leaves the servo alone -/

section Handlers

variable {c : Clock} {a : Answers} {s t : ClockState} {p : Nat}

/-- A list of steps leaves the servo if each step does. -/
theorem servo_foldl {α : Type} {step : ClockState → α → ClockState}
    (each : ∀ s item, (step s item).servoState = s.servoState) (items : List α) (s : ClockState) :
    (items.foldl step s).servoState = s.servoState := by
  induction items generalizing s with
  | nil => rfl
  | cons item rest inductionHypothesis => exact (inductionHypothesis _).trans (each s item)

/-- The slots of the peer delay are no concern of the servo. -/
theorem servo_dropPeerDelay (slot : PeerSlot) :
    (dropPeerDelay slot p s).servoState = s.servoState := by
  obtain ⟨_, same⟩ := dropPeerDelay_state slot p s
  rw [same]

/-- A request is taken off the list. -/
theorem servo_dropDelayReq (m : Stored) : (dropDelayReq p m s).servoState = s.servoState := rfl

/-- All requests are taken off the list. -/
theorem servo_flushDelayReq : (flushDelayReq p s).servoState = s.servoState :=
  servo_foldl (fun _ => servo_dropDelayReq) _ s

/-- The half of a pair is given back. -/
theorem servo_putLast : (putLast p s).servoState = s.servoState := by
  obtain ⟨_, same⟩ := putLast_state p s
  rw [same]

/-- The half of a pair is given up. -/
theorem servo_flushLastSync : (flushLastSync p s).servoState = s.servoState := by
  unfold flushLastSync
  split
  · exact servo_putLast
  · rfl

/-- Sending takes no sample. -/
theorem servo_portTxAnnounce : (portTxAnnounce c a p s).2.servoState = s.servoState := by
  unfold portTxAnnounce
  dsimp only
  split <;> rfl

/-- Sending takes no sample, and the Follow_Up neither. -/
theorem servo_portTxSync : (portTxSync c a p s).2.servoState = s.servoState := by
  have followUp (t : ClockState) : (txFollowUp c a p t).2.servoState = t.servoState := by
    unfold txFollowUp
    split <;> rfl
  unfold portTxSync
  dsimp only
  split
  · rfl
  split
  · rfl
  split
  · rfl
  split
  · rfl
  · exact followUp _

/-- A request that is sent is kept; its time is used when the answer comes. -/
theorem servo_sendRequest (m : Stored) : (sendRequest a p m s).2.servoState = s.servoState := by
  unfold sendRequest
  split <;> rfl

/-- A Pdelay_Req is sent. -/
theorem servo_portPdelayRequest : (portPdelayRequest c a p s).2.servoState = s.servoState := by
  unfold portPdelayRequest
  dsimp only
  generalize began : s.withRunning p _ = t
  have before : t.servoState = s.servoState := began ▸ rfl
  generalize { c.newMessage p .pdelayReq with
    correction := -(c.setup p).asymmetry
    sequenceId := (t.ports p).running.delayreqSeqnum - 1 } = msg
  have sent : (sendRequest a p (t.obtain msg).1 (t.obtain msg).2).2.servoState = t.servoState :=
    servo_sendRequest _
  generalize sendRequest a p (t.obtain msg).1 (t.obtain msg).2 = result at sent ⊢
  obtain ⟨outcome, u⟩ := result
  rw [← before, ← sent]
  cases outcome with
  | none => rfl
  | some m => exact servo_dropPeerDelay .req

/-- A delay request that was sent is kept. -/
theorem servo_keepDelayReq (m : Stored) (before : t.servoState = s.servoState) :
    (match sendRequest a p m t with
      | (none, s) => (true, s)
      | (some m, s) => (false, (s.handOver m.cell).withPort p fun port =>
          { port with delayReq := m :: port.delayReq })).2.servoState = s.servoState := by
  have sent : (sendRequest a p m t).2.servoState = t.servoState := servo_sendRequest m
  generalize sendRequest a p m t = result at sent ⊢
  obtain ⟨outcome, u⟩ := result
  rw [← before, ← sent]
  cases outcome <;> rfl

/-- A Delay_Req is sent. -/
theorem servo_portDelayRequest : (portDelayRequest c a p s).2.servoState = s.servoState := by
  have dropped : (dropPeerDelay .fup p (dropPeerDelay .resp p s)).servoState = s.servoState :=
    (servo_dropPeerDelay .fup).trans (servo_dropPeerDelay .resp)
  unfold portDelayRequest
  dsimp only
  generalize dropPeerDelay .fup p (dropPeerDelay .resp p s) = t at dropped ⊢
  rw [← dropped]
  split
  · exact servo_portPdelayRequest
  · refine servo_keepDelayReq _ ?_
    split <;> rfl

/-- A Delay_Req is answered. -/
theorem servo_processDelayReq (m : Stored) :
    (processDelayReq c a p m s).2.servoState = s.servoState := by
  have monitored (t : ClockState) :
      (monitorSync c a p m.msg t).2.servoState = t.servoState := servo_portTxSync
  unfold processDelayReq
  dsimp only
  split
  · rfl
  split
  · rfl
  · have answered : (if portNsmReply c p m.msg then
        netSyncRespAppend c (s.obtain (c.newMessage p .delayResp)).2
      else (s.obtain (c.newMessage p .delayResp)).2).servoState = s.servoState := by
      unfold netSyncRespAppend
      repeat' split
      all_goals rfl
    generalize (if portNsmReply c p m.msg then _ else _) = t at answered ⊢
    rw [← answered]
    split
    · rfl
    split
    · exact monitored _
    · rfl

/-- A delay is computed, which is not a sample of the servo. -/
theorem servo_processDelayResp (m : Stored) :
    (processDelayResp c p m s).servoState = s.servoState := by
  unfold processDelayResp
  split
  · rfl
  split
  · rfl
  split
  · rfl
  split
  · rfl
  next req _ =>
    have measured (rx : Int) :
        (clockPathDelay p req.msg.hwts rx m.msg.sourcePortIdentity s).servoState = s.servoState := by
      unfold clockPathDelay
      dsimp only
      split <;> rfl
    dsimp only
    unfold takeDelayInterval
    repeat' split
    all_goals exact measured _

/-- The identity of a peer is kept. -/
theorem servo_meetPeer (peer : PortIdentity) : (meetPeer a p peer s).servoState = s.servoState := by
  unfold meetPeer
  repeat' split
  all_goals rfl

/-- A Pdelay_Req is answered. -/
theorem servo_processPdelayReq (m : Stored) :
    (processPdelayReq c a p m s).2.servoState = s.servoState := by
  have detected : (detectPeer p s).servoState = s.servoState := by
    unfold detectPeer
    split <;> rfl
  unfold processPdelayReq
  dsimp only
  repeat' split
  all_goals first
    | rfl
    | exact (servo_meetPeer m.msg.sourcePortIdentity).trans detected

/-- A peer delay is computed. -/
theorem servo_portPeerDelay : (portPeerDelay c p s).servoState = s.servoState := by
  have measured (req rsp : PtpMessage) (t2 : Int) :
      (peerDelayCalc p req rsp t2 s).servoState = s.servoState := by
    unfold peerDelayCalc
    split
    · rfl
    · refine (servo_dropPeerDelay .req).trans ?_
      split <;> rfl
  unfold portPeerDelay
  repeat' split
  all_goals first
    | rfl
    | exact measured _ _ _

/-- An answer of a peer is kept, and a delay computed from it. -/
theorem servo_processPdelayResp (m : Stored) :
    (processPdelayResp c a p m s).2.servoState = s.servoState := by
  have counted : (countPeers p m.msg s).servoState = s.servoState := by
    unfold countPeers
    repeat' split
    all_goals rfl
  unfold processPdelayResp
  dsimp only
  generalize countPeers p m.msg s = t at counted ⊢
  rw [← counted]
  split
  · rfl
  split
  · rfl
  · have met : (meetPeer a p m.msg.sourcePortIdentity t).servoState = t.servoState :=
      servo_meetPeer m.msg.sourcePortIdentity
    have dropped := servo_dropPeerDelay (s := meetPeer a p m.msg.sourcePortIdentity t) (p := p) .resp
    exact servo_portPeerDelay.trans (Eq.trans dropped met)

/-- The same with the Follow_Up of a peer. -/
theorem servo_processPdelayRespFup (m : Stored) :
    (processPdelayRespFup c p m s).servoState = s.servoState := by
  unfold processPdelayRespFup
  split
  · rfl
  · exact servo_portPeerDelay.trans (servo_dropPeerDelay .fup)

/-- Announces change records only; the master is chosen in a state decision. -/
theorem servo_processAnnounce (m : Stored) :
    (processAnnounce c a p m s).2.servoState = s.servoState := by
  obtain ⟨_, _, _, _, _, _, _, _, _, same⟩ := announced_processAnnounce (c := c) (a := a) (s := s)
    (p := p) m
  rw [same]

/-- The best record is forgotten. -/
theorem servo_clearBest : (clearBest p s).servoState = s.servoState := by
  obtain ⟨_, _, same⟩ := clearBest_state p s
  rw [same]

/-- No management message sets the state of the servo. -/
theorem servo_clockManage (m : PtpMessage) : (clockManage c a p m s).2.servoState = s.servoState := by
  have replied : ((List.range a.replies).foldl
      (fun s _ => s.scratch (c.newMessage p .management)) s).servoState = s.servoState :=
    servo_foldl (fun s _ => (rfl : (s.scratch _).servoState = s.servoState)) _ s
  unfold clockManage
  dsimp only
  split
  · exact replied
  next setting _ =>
    split
    · cases setting <;> exact replied
    · exact replied

/-- Announces have ceased. -/
theorem servo_bcTimeout : (bcTimeout c a p s).2.servoState = s.servoState := by
  have timed : (delayReqPrune a p (setTmo p .announceTimer (clearBest p s))).servoState =
      s.servoState := by
    refine (servo_foldl (fun _ => servo_dropDelayReq) _ _).trans ?_
    exact servo_clearBest
  unfold bcTimeout
  dsimp only
  split <;> exact timed

/-! ## Dispatches -/

/-- A port is disabled. The servo is reset later, in the state decision. -/
theorem servo_portDisable : (portDisable p s).servoState = s.servoState := by
  have flushed : (flushPeerDelay p (flushDelayReq p (flushLastSync p s))).servoState =
      s.servoState := by
    unfold flushPeerDelay
    rw [servo_dropPeerDelay, servo_dropPeerDelay, servo_dropPeerDelay, servo_flushDelayReq,
      servo_flushLastSync]
  rw [portDisable_eq]
  obtain ⟨_, same⟩ := abandon_state p (flushPeerDelay p (flushDelayReq p (flushLastSync p s)))
  rw [same]
  exact flushed

/-- The state machine and the initialisation of a port. -/
theorem servo_portUpdate (event : FsmEvent) (mdiff : Bool) :
    (portUpdate c a p event mdiff s).2.servoState = s.servoState := by
  have attempted : (attempt c a p event mdiff s).servoState = s.servoState := by
    have disabled : (if (updateOf c a p event mdiff s).disabled then portDisable p s.ask
        else s.ask).servoState = s.servoState := by
      split
      · exact servo_portDisable
      · rfl
    unfold attempt
    dsimp only
    split <;> exact disabled
  rw [portUpdate_eq]
  split <;> exact attempted

/-- All timers are cleared. -/
theorem servo_clrTimers : (clrTimers p s).servoState = s.servoState :=
  servo_foldl (fun s fd => (rfl : (clrTmo p fd s).servoState = s.servoState)) _ s

/-- The transition of a port with the end to end mechanism. -/
theorem servo_portE2eTransition (next : PortState) :
    (portE2eTransition p next s).servoState = s.servoState := by
  have cleared : (clrTmo p .delayTimer (clrTimers p s)).servoState = s.servoState :=
    servo_clrTimers (s := s) (p := p)
  unfold portE2eTransition
  dsimp only
  generalize clrTmo p .delayTimer (clrTimers p s) = t at cleared ⊢
  rw [← cleared]
  split
  case h_2 | h_3 => exact servo_portDisable
  case h_9 => exact servo_flushDelayReq.trans servo_flushLastSync
  all_goals rfl

/-- The transition of a port with the peer to peer mechanism. -/
theorem servo_portP2pTransition (next : PortState) :
    (portP2pTransition p next s).servoState = s.servoState := by
  have cleared : (clrTimers p s).servoState = s.servoState := servo_clrTimers
  unfold portP2pTransition
  dsimp only
  generalize clrTimers p s = t at cleared ⊢
  rw [← cleared]
  split
  case h_2 | h_3 => exact servo_portDisable
  case h_10 =>
    change (flushPeerDelay p (flushLastSync p t)).servoState = t.servoState
    unfold flushPeerDelay
    rw [servo_dropPeerDelay, servo_dropPeerDelay, servo_dropPeerDelay, servo_flushLastSync]
  all_goals rfl

/-- The transition of a port of a transparent clock. -/
theorem servo_tcTransition (flush : Bool) (next : PortState) :
    (tcTransition flush p next s).servoState = s.servoState := by
  have cleared : (clrTimers p s).servoState = s.servoState := servo_clrTimers
  unfold tcTransition
  dsimp only
  generalize clrTimers p s = t at cleared ⊢
  rw [← cleared]
  split
  case h_4 | h_5 => exact servo_portDisable
  case h_10 =>
    cases flush
    · rfl
    · exact servo_flushDelayReq.trans servo_flushLastSync
  all_goals rfl

/-- The state machine with the transition after it. -/
theorem servo_bcTransition (event : FsmEvent) (mdiff : Bool) :
    (bcTransition c a p event mdiff s).2.servoState = s.servoState := by
  have updated : (portUpdate c a p event mdiff s).2.servoState = s.servoState :=
    servo_portUpdate event mdiff
  rw [bcTransition_eq]
  dsimp only
  split
  · exact updated
  split
  · exact (servo_portP2pTransition _).trans updated
  · exact (servo_portE2eTransition _).trans updated

/-- A dispatch leaves the servo alone unless the port goes over to its own physical clock, which it
does when it becomes UNCALIBRATED. -/
theorem portDispatch_servo (event : FsmEvent) (mdiff : Bool) :
    (portDispatch c a p event mdiff s).servoState = s.servoState ∨
      (portDispatch c a p event mdiff s).servoState = .unlocked ∧
        ((portDispatch c a p event mdiff s).ports p).state = .uncalibrated := by
  have moved : (bcTransition c a p event mdiff s).2.servoState = s.servoState :=
    servo_bcTransition event mdiff
  have boundary : (bcDispatch c a p event mdiff s).servoState = s.servoState ∨
      (bcDispatch c a p event mdiff s).servoState = .unlocked ∧
        ((bcDispatch c a p event mdiff s).ports p).state = .uncalibrated := by
    rw [bcDispatch_eq]
    dsimp only
    generalize bcTransition c a p event mdiff s = result at moved ⊢
    split
    next switches =>
      simp only [Bool.and_eq_true, decide_eq_true_eq] at switches
      unfold clockSwitchPhc
      by_cases switched : a.switches p result.2.asked = true
      · rw [if_pos switched]
        exact Or.inr ⟨rfl, switches.2⟩
      · rw [if_neg switched]
        exact Or.inl ((servo_bcTransition .faultDetected false).trans moved)
    next => exact Or.inl moved
  have transparent (flush : Bool) :
      (tcDispatch c a flush p event mdiff s).servoState = s.servoState := by
    have updated : (portUpdate c a p event mdiff s).2.servoState = s.servoState :=
      servo_portUpdate event mdiff
    rw [tcDispatch_eq]
    dsimp only
    split
    · exact updated
    · exact (servo_tcTransition flush _).trans updated
  unfold portDispatch
  split
  · exact boundary
  · exact boundary
  · exact Or.inl (transparent true)
  · exact Or.inl (transparent false)

end Handlers

/-! ## Ports and servo -/

/-- One port at most follows a master, a port is SLAVE only while the servo is locked, and the servo
of a free running clock never is. -/
structure Synchronised (c : Clock) (s : ClockState) : Prop where
  alone : ∀ p q, (s.ports p).state.tracks → (s.ports q).state.tracks → p = q
  locked : ∀ p, (s.ports p).state = .slave → s.servoState = .locked
  free : c.freeRunning → s.servoState = .unlocked

section Synchronising

variable {c : Clock} {a : Answers} {s t : ClockState} {p : Nat}

/-- A step that leaves the states of the ports and the servo alone. -/
theorem Synchronised.aside (synchronised : Synchronised c s) (kept : Aside s t)
    (servo : t.servoState = s.servoState) : Synchronised c t where
  alone := by
    intro p q first second
    rw [(kept p).state] at first
    rw [(kept q).state] at second
    exact synchronised.alone p q first second
  locked := by
    intro p slave
    rw [(kept p).state] at slave
    exact servo.trans (synchronised.locked p slave)
  free := fun running => servo.trans (synchronised.free running)

/-- The same ports and the same servo. -/
theorem Synchronised.of_same (synchronised : Synchronised c s) (ports : t.ports = s.ports)
    (servo : t.servoState = s.servoState) : Synchronised c t :=
  synchronised.aside (Aside.of_ports ports) servo

/-! ### What a dispatch leads to -/

/-- A port comes to follow a master only by being told to be a slave. -/
theorem machine_tracks {state : PortState} {event : FsmEvent} {mdiff : Bool}
    (follows : (c.machine state event mdiff).tracks) : state.tracks ∨ event = .rsSlave := by
  unfold Clock.machine at follows
  split at follows
  · cases state <;> cases event <;> cases mdiff <;> simp_all [ptpSlaveFsm, PortState.tracks]
  · cases state <;> cases event <;> cases mdiff <;> simp_all [ptpFsm, PortState.tracks]

/-- Only a locked servo leads to SLAVE, and an unlocked one away from it. -/
theorem machine_slave {state : PortState} {event : FsmEvent} {mdiff : Bool}
    (slave : c.machine state event mdiff = .slave) :
    event = .masterClockSelected ∨ state = .slave ∧ event ≠ .synchronizationFault := by
  unfold Clock.machine at slave
  split at slave
  · cases state <;> cases event <;> cases mdiff <;> simp_all [ptpSlaveFsm]
  · cases state <;> cases event <;> cases mdiff <;> simp_all [ptpFsm]

/-- A port that follows a master after an event was led to that by its state machine. -/
theorem portDispatch_led {event : FsmEvent} {mdiff : Bool}
    (follows : ((portDispatch c a p event mdiff s).ports p).state.tracks) :
    ((portDispatch c a p event mdiff s).ports p).state =
      c.machine (s.ports p).state event mdiff := by
  rcases portDispatch_state c a p event mdiff s with same | ⟨_, faulty | listening⟩
  · rw [same] at follows ⊢
    rw [updateOf_direct]
    · intro listening
      rw [listening] at follows
      cases follows
    · intro faulty
      rw [faulty] at follows
      cases follows
  · rw [faulty] at follows
    cases follows
  · rw [listening] at follows
    cases follows

/-- So any other event leaves no port following that did not follow before, the one that is
dispatched and all others. -/
theorem portDispatch_tracks {event : FsmEvent} {mdiff : Bool} (other : event ≠ .rsSlave) {q : Nat}
    (follows : ((portDispatch c a p event mdiff s).ports q).state.tracks) :
    (s.ports q).state.tracks := by
  by_cases here : q = p
  · subst here
    have led := portDispatch_led follows
    rw [led] at follows
    exact (machine_tracks follows).resolve_right other
  · rwa [portDispatch_elsewhere here] at follows

/-- A slave follows a master. -/
theorem tracks_of_slave {state : PortState} (slave : state = .slave) : state.tracks := by
  rw [slave]
  rfl

/-- The servo keeps its state over an event after which a port is SLAVE, if no other port is
UNCALIBRATED then. -/
theorem portDispatch_keeps_servo {event : FsmEvent} {mdiff : Bool} {q : Nat}
    (alone : ((portDispatch c a p event mdiff s).ports p).state.tracks → q = p)
    (slave : ((portDispatch c a p event mdiff s).ports q).state = .slave) :
    (portDispatch c a p event mdiff s).servoState = s.servoState := by
  rcases portDispatch_servo (c := c) (a := a) (s := s) (p := p) event mdiff with
    same | ⟨_, uncalibrated⟩
  · exact same
  · have here : q = p := alone (by rw [uncalibrated]; rfl)
    rw [here, uncalibrated] at slave
    cases slave

/-- A servo that is unlocked stays so while events are put to ports: a switch of the physical clock
only unlocks it. -/
theorem portDispatch_free {event : FsmEvent} {mdiff : Bool} (unlocked : s.servoState = .unlocked) :
    (portDispatch c a p event mdiff s).servoState = .unlocked := by
  rcases portDispatch_servo (c := c) (a := a) (s := s) (p := p) event mdiff with same | ⟨same, _⟩
  · exact same.trans unlocked
  · exact same

/-- Only the state decision and the servo lead a port to follow a master or to be SLAVE. -/
theorem Synchronised.dispatch (synchronised : Synchronised c s) {event : FsmEvent}
    (other : event ≠ .rsSlave ∧ event ≠ .masterClockSelected) (mdiff : Bool) :
    Synchronised c (portDispatch c a p event mdiff s) where
  alone := fun q r first second => synchronised.alone q r (portDispatch_tracks other.1 first)
    (portDispatch_tracks other.1 second)
  locked := by
    intro q slave
    have follows := portDispatch_tracks other.1 (tracks_of_slave slave)
    have before : (s.ports q).state = .slave := by
      by_cases here : q = p
      · subst here
        rw [portDispatch_led (tracks_of_slave slave)] at slave
        rcases machine_slave slave with selected | ⟨before, _⟩
        · exact absurd selected other.2
        · exact before
      · rwa [portDispatch_elsewhere here] at slave
    rw [portDispatch_keeps_servo (fun here => ?_) slave]
    · exact synchronised.locked q before
    · exact synchronised.alone q p follows (portDispatch_tracks other.1 here)
  free := fun running => portDispatch_free (synchronised.free running)

/-- The servo tells the only port that follows a master. -/
theorem synchronised_told {event : FsmEvent} (other : event ≠ .rsSlave)
    (alone : ∀ q, (s.ports q).state.tracks → q = p)
    (locks : event ≠ .synchronizationFault → s.servoState = .locked)
    (free : c.freeRunning → s.servoState = .unlocked) :
    Synchronised c (portDispatch c a p event false s) where
  alone := by
    intro q r first second
    rw [alone q (portDispatch_tracks other first), alone r (portDispatch_tracks other second)]
  locked := by
    intro q slave
    have here : q = p := alone q (portDispatch_tracks other (tracks_of_slave slave))
    subst here
    rw [portDispatch_keeps_servo (fun _ => rfl) slave]
    apply locks
    rw [portDispatch_led (tracks_of_slave slave)] at slave
    rcases machine_slave slave with rfl | ⟨_, sound⟩
    · nofun
    · exact sound
  free := fun running => portDispatch_free (free running)

/-! ### The servo takes a sample -/

/-- The correction for UTC is made before the servo is asked. -/
theorem servo_clockUtcCorrect (ingress : Int) :
    (clockUtcCorrect c p ingress s).2.servoState = s.servoState := by
  rcases clockUtcCorrect_cases c p ingress s with same | ⟨_, _, _, same⟩ <;> rw [same]
  rfl

/-- What `clock_synchronize` returns is the state of the servo, or UNLOCKED. The servo of a free
running clock takes no samples. -/
theorem clockSynchronize_locks (ingress origin : Int) (t1From t2From : PortIdentity) :
    ((clockSynchronize c a p ingress origin t1From t2From s).1 = .locked →
      (clockSynchronize c a p ingress origin t1From t2From s).2.servoState = .locked) ∧
    (c.freeRunning → (clockSynchronize c a p ingress origin t1From t2From s).2.servoState =
      s.servoState) := by
  have corrected (t : ClockState) : (clockUtcCorrect c p ingress
      (tsprocUpdateOffset c a p t)).2.servoState = t.servoState :=
    (servo_clockUtcCorrect ingress).trans tsprocUpdateOffset_servoState
  rw [clockSynchronize_eq]
  dsimp only
  split
  · exact ⟨nofun, fun _ => rfl⟩
  split
  · exact ⟨id, fun _ => corrected _⟩
  split
  · exact ⟨nofun, fun _ => corrected _⟩
  next running =>
    refine ⟨?_, fun free => absurd free running⟩
    intro locked
    unfold servoSample at locked ⊢
    dsimp only at locked ⊢
    split
    next jump =>
      rw [if_pos jump] at locked
      exact locked
    next jump =>
      rw [if_neg jump] at locked
      exact locked

/-- The servo takes a sample. The port becomes a slave only if the servo is locked then, and a jump
or a loss of the lock takes it out of being one. -/
theorem Synchronised.portSynchronize (synchronised : Synchronised c s)
    (follows : (s.ports p).state.tracks) (ingressTs originTs correction1 correction2 : Int)
    (t1From t2From : PortIdentity) :
    Synchronised c (portSynchronize c a p ingressTs originTs correction1 correction2
      t1From t2From s) := by
  have timed : Synchronised c (setTmo p .syncRxTimer s) :=
    synchronised.aside (aside_setTmo .syncRxTimer) rfl
  have state : ((setTmo p .syncRxTimer s).ports p).state.tracks := by
    rw [(aside_setTmo (s := s) (p := p) .syncRxTimer p).state]
    exact follows
  rw [portSynchronize_eq]
  dsimp only
  have locks := clockSynchronize_locks (c := c) (a := a) (s := setTmo p .syncRxTimer s) (p := p)
    ingressTs (originTs + (correctionToTmv correction1 + correctionToTmv correction2)) t1From t2From
  have ports := clockSynchronize_ports (c := c) (a := a) (s := setTmo p .syncRxTimer s) p
    ingressTs (originTs + (correctionToTmv correction1 + correctionToTmv correction2)) t1From t2From
  generalize clockSynchronize c a p ingressTs _ t1From t2From _ = result at locks ports ⊢
  obtain ⟨servo, t⟩ := result
  dsimp only at locks ports ⊢
  have alone : ∀ q, (t.ports q).state.tracks → q = p := by
    intro q tracks
    rw [ports] at tracks
    exact timed.alone q p tracks state
  have free : c.freeRunning → t.servoState = .unlocked :=
    fun running => (locks.2 running).trans (timed.free running)
  have lost : Synchronised c (portDispatch c a p .synchronizationFault false t) :=
    synchronised_told nofun alone (fun sound => absurd rfl sound) free
  cases servo with
  | unlocked => exact lost
  | jump =>
    apply lost.aside (aside_flushDelayReq.trans (aside_dropPeerDelay .req))
    exact (servo_dropPeerDelay .req).trans servo_flushDelayReq
  | locked => exact synchronised_told nofun alone (fun _ => locks.1 rfl) free

/-- A pair is complete and goes to the servo. -/
theorem Synchronised.completePair (synchronised : Synchronised c s)
    (follows : (s.ports p).state.tracks) (sync fup : PtpMessage) :
    Synchronised c (completePair c a p sync fup s) := by
  have noted : Synchronised c (s.note (.paired sync fup)) := synchronised.of_same rfl rfl
  have done : Synchronised c (LinuxPtp.portSynchronize c a p sync.hwts fup.pdu sync.correction
      fup.correction fup.sourcePortIdentity sync.sourcePortIdentity (s.note (.paired sync fup))) :=
    noted.portSynchronize follows _ _ _ _ _ _
  unfold LinuxPtp.completePair
  exact done.aside aside_putLast servo_putLast

/-- A Sync or a Follow_Up is put to the machine of pairs: either it is kept, or it completes a pair. -/
theorem Synchronised.portSyfufsm (synchronised : Synchronised c s)
    (follows : (s.ports p).state.tracks) (event : SyfuEvent) (m : Stored) :
    Synchronised c (portSyfufsm c a p event m s) := by
  have keeps (t : ClockState) (kind : SyfuState) (synchronised : Synchronised c t) :
      Synchronised c (keepLast p kind m t) :=
    synchronised.aside (Aside.port rfl (Kept.minor _ _ _ _ _ _ _ fun _ => id)) rfl
  have emptied : Synchronised c (putLast p s) := synchronised.aside aside_putLast servo_putLast
  unfold LinuxPtp.portSyfufsm
  split
  · exact keeps s _ synchronised
  · exact keeps s _ synchronised
  · exact keeps _ _ emptied
  · exact keeps _ _ emptied
  · exact keeps _ _ emptied
  · exact keeps _ _ emptied
  · split
    · exact synchronised
    · exact synchronised.completePair follows _ _
  · split
    · exact synchronised
    · exact synchronised.completePair follows _ _
  all_goals exact synchronised

/-- A Follow_Up counts only at a port that follows a master. -/
theorem Synchronised.processFollowUp (synchronised : Synchronised c s) (m : Stored) :
    Synchronised c (processFollowUp c a p m s) := by
  unfold LinuxPtp.processFollowUp
  split
  · exact synchronised
  next tracks =>
    have follows : (s.ports p).state.tracks := by simpa using tracks
    split
    · exact synchronised
    split
    · exact synchronised
    split
    · exact synchronised.portSyfufsm follows _ m
    · exact synchronised.portSyfufsm follows _ m

/-- A Sync counts only there too; one that needs no Follow_Up is a sample at once. -/
theorem Synchronised.processSync (synchronised : Synchronised c s) (m : Stored) :
    Synchronised c (processSync c a p m s) := by
  unfold LinuxPtp.processSync
  split
  · exact synchronised
  next tracks =>
    split
    · exact synchronised
    · dsimp only
      generalize began : ClockState.amend _ _ _ = t
      have kept : Aside s t := by
        rw [← began]
        exact Aside.port rfl (Kept.minor _ _ _ _ _ _ _ fun _ => id)
      have before : Synchronised c t := synchronised.aside kept (began ▸ rfl)
      have follows : (t.ports p).state.tracks := by
        rw [(kept p).state]
        simpa using tracks
      split
      · exact (before.portSynchronize follows _ _ _ _ _ _).aside aside_flushLastSync
          servo_flushLastSync
      split
      · exact before.portSyfufsm follows _ _
      · exact before.portSyfufsm follows _ _

/-! ### Reception -/

/-- Of all messages only Syncs and Follow_Ups reach the servo. -/
theorem Synchronised.bcProcess (synchronised : Synchronised c s) (m : Stored) :
    Synchronised c (bcProcess c a p m s).2 := by
  unfold LinuxPtp.bcProcess
  split
  · exact synchronised.processSync m
  · exact synchronised.aside (aside_processDelayReq m) (servo_processDelayReq m)
  · exact synchronised.aside (aside_processPdelayReq m) (servo_processPdelayReq m)
  · exact synchronised.aside (aside_processPdelayResp m) (servo_processPdelayResp m)
  · exact synchronised.processFollowUp m
  · exact synchronised.aside (aside_processDelayResp m) (servo_processDelayResp m)
  · exact synchronised.aside (aside_processPdelayRespFup m) (servo_processPdelayRespFup m)
  · exact synchronised.aside (aside_processAnnounce m) (servo_processAnnounce m)
  · exact synchronised
  · exact synchronised.aside (aside_clockManage m.msg) (servo_clockManage m.msg)

/-- The socket is read and the message handled. -/
theorem Synchronised.bcReceive (synchronised : Synchronised c s) :
    Synchronised c (bcReceive c a p s).2 := by
  unfold LinuxPtp.bcReceive
  split
  · exact synchronised.of_same rfl rfl
  · exact synchronised.of_same rfl rfl
  next msg received =>
    dsimp only
    have began : Synchronised c (portCapable a (s.obtain msg).2).2 := synchronised.of_same rfl rfl
    split
    · exact began.of_same rfl rfl
    · exact (began.bcProcess _).of_same rfl rfl

/-- A message that is sent on is no sample. -/
theorem Synchronised.forwardTo (synchronised : Synchronised c s) (q : Nat) (m : PtpMessage) :
    Synchronised c (forwardTo c a q m s p) := by
  have asked : Synchronised c s.ask := synchronised.of_same rfl rfl
  unfold LinuxPtp.forwardTo
  split
  · exact synchronised
  split
  · exact asked
  · exact asked.dispatch (by simp) false

/-- All ports in turn. -/
theorem Synchronised.forwardPass (synchronised : Synchronised c s) (q : Nat) (m : PtpMessage) :
    Synchronised c (forwardPass c a q m s) := by
  unfold LinuxPtp.forwardPass
  generalize c.ports = items
  induction items generalizing s with
  | nil => exact synchronised
  | cons p rest inductionHypothesis => exact inductionHypothesis (synchronised.forwardTo q m)

/-- An event message goes out in two passes. -/
theorem Synchronised.fwdEvent (synchronised : Synchronised c s) (q : Nat) (m : PtpMessage) :
    Synchronised c (fwdEvent c a q m s) := (synchronised.forwardPass q m).forwardPass q m

/-- A Sync is sent on, with a Follow_Up of its own if it came without one. -/
theorem Synchronised.fwdSync (synchronised : Synchronised c s) (q : Nat) (m : PtpMessage) :
    Synchronised c (fwdSync c a q m s) := by
  unfold LinuxPtp.fwdSync
  dsimp only
  split
  · exact (synchronised.fwdEvent q m).forwardPass q _
  · exact synchronised.fwdEvent q m

/-- A copy is handled if there is one. -/
theorem Synchronised.copy {u : ClockState} {dup : Bool} (forwarded : Synchronised c t)
    (handled : Synchronised c u) : Synchronised c (if dup then u else t) := by
  cases dup
  · exact forwarded
  · exact handled

/-- A message is only sent on, or handled as well. -/
theorem Synchronised.answer {dup : Bool} {result other : FsmEvent × ClockState}
    (forwarded : Synchronised c other.2) (handled : Synchronised c result.2) :
    Synchronised c (if dup then result else other).2 := by
  cases dup
  · exact forwarded
  · exact handled

/-- An end to end transparent clock may follow the Syncs that it sends on. -/
theorem Synchronised.e2eProcess (synchronised : Synchronised c s) (m : Stored) (dup : Bool) :
    Synchronised c (e2eProcess c a p m dup s).2 := by
  have passed : Synchronised c (LinuxPtp.forwardPass c a p m.msg s) :=
    synchronised.forwardPass p m.msg
  have relayed : Synchronised c (LinuxPtp.fwdSync c a p m.msg s) := synchronised.fwdSync p m.msg
  unfold LinuxPtp.e2eProcess
  split
  · exact relayed.copy (relayed.processSync m)
  · exact synchronised.fwdEvent p m.msg
  · exact passed.copy (passed.processFollowUp m)
  · exact passed.copy (passed.aside (aside_processDelayResp m) (servo_processDelayResp m))
  · exact Synchronised.answer passed
      (passed.aside (aside_processAnnounce m) (servo_processAnnounce m))
  · exact passed
  · exact passed
  all_goals exact synchronised

/-- A peer to peer transparent clock as well. -/
theorem Synchronised.p2pProcess (synchronised : Synchronised c s) (m : Stored) (dup : Bool) :
    Synchronised c (p2pProcess c a p m dup s).2 := by
  have passed : Synchronised c (LinuxPtp.forwardPass c a p m.msg s) :=
    synchronised.forwardPass p m.msg
  have relayed : Synchronised c (LinuxPtp.fwdSync c a p m.msg s) := synchronised.fwdSync p m.msg
  unfold LinuxPtp.p2pProcess
  split
  · exact relayed.copy (relayed.processSync m)
  · exact Synchronised.answer synchronised
      (synchronised.aside (aside_processPdelayReq m) (servo_processPdelayReq m))
  · exact Synchronised.answer synchronised
      (synchronised.aside (aside_processPdelayResp m) (servo_processPdelayResp m))
  · exact passed.copy (passed.processFollowUp m)
  · exact synchronised.copy
      (synchronised.aside (aside_processPdelayRespFup m) (servo_processPdelayRespFup m))
  · exact Synchronised.answer passed
      (passed.aside (aside_processAnnounce m) (servo_processAnnounce m))
  · exact passed
  · exact passed
  all_goals exact synchronised

/-- The socket of a transparent clock is read. -/
theorem Synchronised.relayReceive (synchronised : Synchronised c s) (endToEnd : Bool) :
    Synchronised c (relayReceive c a endToEnd p s).2 := by
  unfold LinuxPtp.relayReceive
  split
  · exact synchronised.of_same rfl rfl
  · exact synchronised.of_same rfl rfl
  next msg received =>
    dsimp only
    split
    · exact synchronised.of_same rfl rfl
    · generalize began : (if (!tcIgnore c p msg) = true then (s.obtain msg).2 else
        (s.obtain msg).2.release (s.obtain msg).1.cell) = t
      have before : Synchronised c t := by
        rw [← began]
        split <;> exact synchronised.of_same rfl rfl
      generalize processed : (if endToEnd = true then
        LinuxPtp.e2eProcess c a p (s.obtain msg).1 (!tcIgnore c p msg) t else
        LinuxPtp.p2pProcess c a p (s.obtain msg).1 (!tcIgnore c p msg) t) = result
      have handled : Synchronised c result.2 := by
        rw [← processed]
        split
        · exact before.e2eProcess _ _
        · exact before.p2pProcess _ _
      split <;> exact handled.of_same rfl rfl

/-! ### Events -/

/-- The clock stays with its physical clock. -/
theorem Synchronised.portLinkStatus (synchronised : Synchronised c s) {news : LinkNews}
    (kept : news.clock ≠ .switched) : Synchronised c (portLinkStatus c a p s news) := by
  have linked (found : LinkStatus) :
      Aside s (s.withPort p fun port => { port with linkStatus := found }) :=
    aside_withPort (Kept.minor _ _ _ _ _ _ _ fun _ => id)
  have unswitched : ∃ found : LinkStatus, LinuxPtp.portLinkStatus c a p s news =
      let linked := s.withPort p fun port => { port with linkStatus := found }
      if found.up then linked else { linked with sde := true } := by
    unfold LinuxPtp.portLinkStatus
    simp only [kept, decide_false, Bool.and_false, Bool.false_eq_true, if_false]
    exact ⟨_, rfl⟩
  obtain ⟨found, same⟩ := unswitched
  have noted : Synchronised c (s.withPort p fun port => { port with linkStatus := found }) :=
    synchronised.aside (linked found) rfl
  rw [same]
  dsimp only
  split
  · exact noted
  · exact noted.of_same rfl rfl

/-- News of links. None of them may move the clock to another physical clock, since that unlocks the
servo without a transition of the port. -/
theorem Synchronised.rtnlEvent (synchronised : Synchronised c s)
    (kept : ∀ news ∈ a.links, news.clock ≠ .switched) : Synchronised c (rtnlEvent c a p s).2 := by
  unfold LinuxPtp.rtnlEvent
  dsimp only
  generalize a.links = links at kept
  induction links generalizing s with
  | nil => exact synchronised
  | cons news rest inductionHypothesis =>
    apply inductionHypothesis
    · exact synchronised.portLinkStatus (kept news List.mem_cons_self)
    · exact fun later member => kept later (List.mem_cons_of_mem _ member)

/-- A descriptor of a port of an ordinary or boundary clock. -/
theorem Synchronised.bcEvent (synchronised : Synchronised c s)
    (kept : ∀ news ∈ a.links, news.clock ≠ .switched) (fd : Descriptor) :
    Synchronised c (bcEvent c a p fd s).2 := by
  have pruned : (delayReqPrune a p (setTmo p .delayTimer s)).servoState = s.servoState :=
    servo_foldl (fun _ => servo_dropDelayReq) _ _
  unfold LinuxPtp.bcEvent
  split
  · exact synchronised.aside aside_bcTimeout servo_bcTimeout
  · exact synchronised.aside aside_bcTimeout servo_bcTimeout
  · exact synchronised.aside
      (((aside_setTmo .delayTimer).trans aside_delayReqPrune).trans aside_portDelayRequest)
      (servo_portDelayRequest.trans pruned)
  · exact synchronised
  · exact synchronised.aside ((aside_setTmo .mannoTimer).trans aside_portTxAnnounce)
      servo_portTxAnnounce
  · exact synchronised.aside ((aside_setTmo .syncTxTimer).trans aside_portTxSync) servo_portTxSync
  · exact synchronised.rtnlEvent kept
  · exact synchronised.bcReceive
  · exact synchronised.bcReceive

/-- A descriptor of a port of an end to end transparent clock. -/
theorem Synchronised.e2eEvent (synchronised : Synchronised c s)
    (kept : ∀ news ∈ a.links, news.clock ≠ .switched) (fd : Descriptor) :
    Synchronised c (e2eEvent c a p fd s).2 := by
  have pruned : (delayReqPrune a p (setTmo p .delayTimer s)).servoState = s.servoState :=
    servo_foldl (fun _ => servo_dropDelayReq) _ _
  have asked : (e2eDelayTimer c a p s).2.servoState = s.servoState := by
    unfold e2eDelayTimer
    dsimp only
    split
    · exact servo_portDelayRequest.trans pruned
    · exact pruned
  have timed : (tcTimeout p s).2.servoState = s.servoState := servo_clearBest
  unfold LinuxPtp.e2eEvent
  split
  · exact synchronised.aside aside_tcTimeout timed
  · exact synchronised.aside aside_tcTimeout timed
  · exact synchronised.aside aside_e2eDelayTimer asked
  · exact synchronised
  · exact synchronised
  · exact synchronised
  · exact synchronised.rtnlEvent kept
  · exact synchronised.relayReceive true
  · exact synchronised.relayReceive true

/-- A descriptor of a port of a peer to peer transparent clock. -/
theorem Synchronised.p2pEvent (synchronised : Synchronised c s)
    (kept : ∀ news ∈ a.links, news.clock ≠ .switched) (fd : Descriptor) :
    Synchronised c (p2pEvent c a p fd s).2 := by
  have asked : (p2pDelayTimer c a p s).2.servoState = s.servoState := by
    unfold p2pDelayTimer
    dsimp only
    split
    · exact servo_portDelayRequest
    · rfl
  have timed : (tcTimeout p s).2.servoState = s.servoState := servo_clearBest
  unfold LinuxPtp.p2pEvent
  split
  · exact synchronised.aside aside_tcTimeout timed
  · exact synchronised.aside aside_tcTimeout timed
  · exact synchronised.aside aside_p2pDelayTimer asked
  · exact synchronised
  · exact synchronised
  · exact synchronised
  · exact synchronised.rtnlEvent kept
  · exact synchronised.relayReceive false
  · exact synchronised.relayReceive false

/-- A descriptor of a port, whatever the type of its clock is. -/
theorem Synchronised.portEvent (synchronised : Synchronised c s)
    (kept : ∀ news ∈ a.links, news.clock ≠ .switched) (fd : Descriptor) :
    Synchronised c (portEvent c a p fd s).2 := by
  unfold LinuxPtp.portEvent
  split
  · exact synchronised.bcEvent kept fd
  · exact synchronised.bcEvent kept fd
  · exact synchronised.e2eEvent kept fd
  · exact synchronised.p2pEvent kept fd

/-- The events that descriptors raise do not make a slave of a port. -/
theorem Raised.not_selected {event : FsmEvent} (raised : Raised event) :
    event ≠ .rsSlave ∧ event ≠ .masterClockSelected := by
  rcases raised with rfl | rfl | rfl | rfl | rfl | rfl <;> simp

/-- A descriptor and the event that it raises. -/
theorem Synchronised.handleDescriptor (synchronised : Synchronised c s)
    (kept : ∀ news ∈ a.links, news.clock ≠ .switched) (fd : Descriptor) :
    Synchronised c (handleDescriptor c a p fd s) := by
  have raised := raised_portEvent (c := c) (a := a) (s := s) p fd
  have done : Synchronised c (LinuxPtp.portEvent c a p fd s).2 := synchronised.portEvent kept fd
  rw [handleDescriptor_eq]
  dsimp only
  apply Synchronised.dispatch _ raised.not_selected
  split
  · exact done.of_same rfl rfl
  · exact done

/-- A descriptor of the local socket, whose port is in no state that counts. -/
theorem Synchronised.handleUds (synchronised : Synchronised c s)
    (kept : ∀ news ∈ a.links, news.clock ≠ .switched) (fd : Descriptor) :
    Synchronised c (handleUds c a fd s) := by
  have done : Synchronised c (LinuxPtp.portEvent c a 0 fd s).2 := synchronised.portEvent kept fd
  unfold LinuxPtp.handleUds
  dsimp only
  split
  · exact done.of_same rfl rfl
  · exact done

/-- States and servo are the same, whatever else of a port is new. -/
theorem Synchronised.of_states (synchronised : Synchronised c s)
    (states : ∀ p, (t.ports p).state = (s.ports p).state) (servo : t.servoState = s.servoState) :
    Synchronised c t where
  alone := by
    intro p q first second
    rw [states] at first second
    exact synchronised.alone p q first second
  locked := by
    intro p slave
    rw [states] at slave
    exact servo.trans (synchronised.locked p slave)
  free := fun running => servo.trans (synchronised.free running)

/-- A fault timer is set. -/
theorem Synchronised.armFault (synchronised : Synchronised c s) (p : Nat) :
    Synchronised c (armFault c p s) := by
  refine synchronised.of_states (t := LinuxPtp.armFault c p s) ?_ rfl
  intro q
  obtain ⟨_, same⟩ := armFault_port (c := c) p q s
  rw [same]

/-- A fault timer is stopped. -/
theorem Synchronised.disarmFault (synchronised : Synchronised c s) (p : Nat) :
    Synchronised c (disarmFault p s) := by
  refine synchronised.of_states (t := LinuxPtp.disarmFault p s) ?_ rfl
  intro q
  obtain ⟨_, same⟩ := disarmFault_port p q s
  rw [same]

/-- A port whose fault timer has expired is initialised again, and listens. -/
theorem Synchronised.handleFaultTimer (synchronised : Synchronised c s) (p : Nat) :
    Synchronised c (handleFaultTimer c a p s) := by
  unfold LinuxPtp.handleFaultTimer
  dsimp only
  split
  · exact (synchronised.disarmFault p).dispatch (by simp) false
  · exact synchronised.disarmFault p

/-- The ports are initialised when the clock is started. -/
theorem Synchronised.clockStart (synchronised : Synchronised c s) :
    Synchronised c (clockStart c a s) := by
  unfold LinuxPtp.clockStart
  generalize c.ports ++ [0] = list
  induction list generalizing s with
  | nil => exact synchronised
  | cons q rest inductionHypothesis =>
    exact inductionHypothesis (synchronised.dispatch (by simp) false)

/-! ### The state decision -/

/-- While the ports are told what to do, the one that is to follow a master is not SLAVE unless the
servo is locked. -/
structure BestLocked (c : Clock) (s : ClockState) : Prop where
  locked : ∀ q, s.best.map Best.port = some q → (s.ports q).state = .slave →
    s.servoState = .locked
  free : c.freeRunning → s.servoState = .unlocked

/-- What is recommended to one port leaves a lock that belongs to the best port. -/
theorem BestLocked.recommend {freshBest : Bool} (locked : BestLocked c s) (p : Nat) :
    BestLocked c (recommend c a freshBest s p) := by
  obtain ⟨_, _, _, _, _, _, same⟩ := informed_state (c := c) (bmcStateDecision c p s) s
  have told : ((LinuxPtp.recommend c a freshBest s p).ports p).state.tracks → _ := recommend_tracks
  have other : recommendation (bmcStateDecision c p s) ≠ .masterClockSelected := by
    cases bmcStateDecision c p s <;> simp [recommendation]
  have ports : (informed c (bmcStateDecision c p s) s).ports = s.ports := by rw [same]
  have servo : (informed c (bmcStateDecision c p s) s).servoState = s.servoState := by rw [same]
  have best : (informed c (bmcStateDecision c p s) s).best = s.best := by rw [same]
  rw [recommend_eq] at told ⊢
  generalize informed c (bmcStateDecision c p s) s = t at told ports servo best ⊢
  generalize recommendation (bmcStateDecision c p s) = event at told other ⊢
  have after : (portDispatch c a p event freshBest t).best = t.best := by
    obtain ⟨_, _, _, _, _, frame⟩ := (portDispatch_touches c a p event freshBest t).frame
    rw [frame]
  constructor
  · intro q followed slave
    rw [after, best] at followed
    rw [portDispatch_keeps_servo (fun follows => ?_) slave, servo]
    · apply locked.locked q followed
      by_cases here : q = p
      · subst here
        rw [portDispatch_led (tracks_of_slave slave), ports] at slave
        exact ((machine_slave slave).resolve_left other).1
      · rwa [portDispatch_elsewhere here, ports] at slave
    · exact Option.some.inj (followed.symm.trans (told follows).1)
  · exact fun running => portDispatch_free (servo.trans (locked.free running))

/-- A state decision that finds another best master has unlocked the servo before it tells any port
to follow; one that finds the same lets the port stay a slave with the lock it has. -/
theorem Synchronised.handleStateDecisionEvent (synchronised : Synchronised c s)
    (slaves : SlavePorts c s) : Synchronised c (handleStateDecisionEvent c a s) := by
  have began : BestLocked c (decided c a s).2 := by
    obtain ⟨_, ports, _, _, _, _, _, each, same⟩ := decided_state (c := c) (a := a) s
    rw [same]
    constructor
    · intro q _ slave
      obtain ⟨_, _, here⟩ := each q
      dsimp only at slave
      rw [here] at slave
      exact synchronised.locked q slave
    · exact synchronised.free
  have told : BestLocked c (LinuxPtp.handleStateDecisionEvent c a s) := by
    rw [handleStateDecisionEvent_eq]
    generalize c.ports = list
    generalize (decided c a s).2 = t at began
    induction list generalizing t with
    | nil => exact began
    | cons p rest inductionHypothesis => exact inductionHypothesis _ (began.recommend p)
  have assigned := (handleStateDecisionEvent_assigned (a := a) slaves).slavePorts
  constructor
  · exact assigned.oneSlavePort.1
  · exact fun p slave => told.locked p (assigned.best p (tracks_of_slave slave)) slave
  · exact told.free

/-- A state decision is made if it was asked for. -/
theorem Synchronised.handleDecision (synchronised : Synchronised c s) (slaves : SlavePorts c s) :
    Synchronised c (handleDecision c a s) := by
  unfold LinuxPtp.handleDecision
  split
  · exact (synchronised.handleStateDecisionEvent slaves).of_same rfl rfl
  · exact synchronised

end Synchronising

/-! ## Runs -/

section Runs

variable {c : Clock}

/-- No link event of the step makes the clock go over to another physical clock. -/
def PollStep.KeepsPhc (step : PollStep) : Prop :=
  ∀ news ∈ (step.answers.map Answers.links).getD [], news.clock ≠ .switched

instance (step : PollStep) : Decidable step.KeepsPhc :=
  inferInstanceAs (Decidable (∀ news ∈ (step.answers.map Answers.links).getD [],
    news.clock ≠ .switched))

/-- One step of the loop, by its kind. -/
theorem Synchronised.pollStep {s : PollState} {step : PollStep} (kept : step.KeepsPhc)
    (synchronised : Synchronised c s.clock) (slaves : SlavePorts c s.clock) :
    Synchronised c (pollStep c s step).clock := by
  cases step with
  | enter p => exact synchronised
  | descriptor p fd a =>
    apply pollStep_descriptor (Synchronised c) synchronised
    · exact fun _ => synchronised.handleDescriptor kept fd
    · exact fun t done => done.armFault p
  | faultTimer p a => exact synchronised.handleFaultTimer p
  | uds fd a => exact synchronised.handleUds kept fd
  | decide a => exact synchronised.handleDecision slaves

/-- At the start no port is a slave. -/
theorem synchronised_start (c : Clock) (start : StartUp) :
    Synchronised c (start.state c).clock := by
  apply Synchronised.clockStart
  constructor
  · exact fun p q follows => by cases follows
  · exact fun p slave => by cases slave
  · exact fun _ => rfl

/-- In every run in which no link event makes the clock go over to another physical clock, a port is
SLAVE only while the servo of the clock is locked. No port of a free running clock ever is.

Proof: a port becomes a slave only by the event that a locked servo puts to it, or stays one under a
lock. Whatever unlocks the servo takes the port out of being a slave in the same step, other than a
link event that moves the clock to another physical clock. -/
theorem slave_locked {start : StartUp} {polls : List Poll} {events : List PollStep}
    (moment : events <+: polls.flatMap (Poll.steps c)) (kept : ∀ step ∈ events, step.KeepsPhc)
    {p : Nat}
    (slave : ((events.foldl (pollStep c) (start.state c)).clock.ports p).state = .slave) :
    (events.foldl (pollStep c) (start.state c)).clock.servoState = .locked ∧
      c.freeRunning = false := by
  have along : Along (pollStep c) (fun _ step => step.KeepsPhc) (start.state c) events :=
    along_of_forall fun step member _ => kept step member
  have both : SlavePorts c (events.foldl (pollStep c) (start.state c)).clock ∧
      Synchronised c (events.foldl (pollStep c) (start.state c)).clock := by
    apply run_keeps (fun s => SlavePorts c s.clock ∧ Synchronised c s.clock) moment along
    · exact ⟨slavePorts_start c start, synchronised_start c start⟩
    · intro s step _ _ both kept
      exact ⟨pollStep_slavePorts both.1 step, both.2.pollStep kept both.1⟩
  have locked := both.2.locked p slave
  refine ⟨locked, ?_⟩
  by_contra running
  rw [both.2.free (by simpa using running)] at locked
  cases locked

/-- The first port becomes SLAVE when the servo locks at the first of two pairs. -/
theorem slave_locked_pairs :
    (([electingPoll, pairPoll 1 .locked, pairPoll 2 .locked].flatMap
      (Poll.steps steadyClock)).foldl (pollStep steadyClock)
        (plainStart.state steadyClock)).clock.servoState = .locked ∧
      steadyClock.freeRunning = false :=
  slave_locked (p := 1) (List.prefix_refl _) (by decide +kernel) (by decide +kernel)

end Runs

end LinuxPtp
