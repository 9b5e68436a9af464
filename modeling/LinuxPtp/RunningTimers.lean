import LinuxPtp.BestPointer
import LinuxPtp.PortSteps

/-!
# Every state keeps its timers running

What a port waits for in a state is announced by a timer. The timers are set when the state of a
port changes, and set anew when they expire, so that a port that is started again without a change
of its state is left with the one timer that initialisation sets.

The timers of a state are those without which a port in it would wait forever. Timers are set in a
transition and set again by their own descriptors; the invariant has an exception for the one that
has just expired, until its descriptor has been handled.
-/

namespace LinuxPtp

open RefPool Runs

/-- The timers that a port needs in a state. -/
def PortState.needs (state : PortState) (mechanism : DelayMechanism) : Descriptor → Prop
  | .announceTimer => state = .listening ∨ state = .passive ∨ state.tracks
  | .qualificationTimer => state = .preMaster
  | .mannoTimer | .syncTxTimer => state = .master ∨ state = .grandMaster
  | .delayTimer => state.tracks ∨ mechanism = .p2p ∧ portIsEnabled state
  | _ => False

/-- The timers that a port needs are set. -/
def Port.OnTime (port : Port) : Prop :=
  ∀ fd, port.state.needs port.delayMechanism fd → port.running.timers fd

/-- All of them but one that may have expired. -/
def Port.OnTimeBut (lapsed : Descriptor) (port : Port) : Prop :=
  ∀ fd, port.state.needs port.delayMechanism fd → fd ≠ lapsed → port.running.timers fd

/-- The network ports have the timers set that they need. -/
def TimersRun (c : Clock) (s : ClockState) : Prop := ∀ p ∈ c.ports, (s.ports p).OnTime

/-- A fault would be cleared at once, and the port be LISTENING as before. -/
def Restarts (c : Clock) (a : Answers) (p : Nat) (s : ClockState) : Prop :=
  (s.ports p).state = .listening ∧ (s.ports p).delayMechanism = .p2p ∧
    clearFaultAsap ((c.setup p).faultInterval (s.ports p).lastFaultType) ∧ a.starts p s.asked

/-- A timer that has expired does not run until it is set again. -/
def lapse (s : PollState) : PollStep → PollState
  | .descriptor p fd _ => if s.faulted then s else { s with clock := clrTmo p fd s.clock }
  | _ => s

/-- One step of a poll, for which a timer may have expired. -/
def timedStep (c : Clock) (s : PollState) (step : PollStep) : PollState :=
  pollStep c (lapse s step) step

/-! ## Timers -/

section Timers

variable {c : Clock} {a : Answers} {s t : ClockState} {p : Nat} {event : FsmEvent} {mdiff : Bool}

/-- All timers that are needed are running, so all but one are. -/
theorem Port.OnTime.but {port : Port} (onTime : port.OnTime) (lapsed : Descriptor) :
    port.OnTimeBut lapsed := fun fd needed _ => onTime fd needed

/-- If the one that is left out is running as well, all are. -/
theorem Port.OnTimeBut.onTime {lapsed : Descriptor} {port : Port} (others : port.OnTimeBut lapsed)
    (there : port.state.needs port.delayMechanism lapsed → port.running.timers lapsed) :
    port.OnTime := by
  intro fd needed
  by_cases same : fd = lapsed
  · subst same
    exact there needed
  · exact others fd needed same

/-- A port that keeps its state needs a further timer only if it has set it. -/
theorem Kept.needs {old new : Port} (kept : Kept old new) {fd : Descriptor}
    (needed : new.state.needs new.delayMechanism fd) :
    old.state.needs old.delayMechanism fd ∨ new.running.timers fd := by
  obtain ⟨state, _, _, mechanism, _⟩ := kept
  rw [state] at needed
  rcases mechanism with same | ⟨_, _, armed⟩
  · rw [same] at needed
    exact Or.inl needed
  · cases fd
    case delayTimer => exact Or.inr armed
    all_goals exact Or.inl needed

/-- A step aside leaves a port with what it needs: it stops no timer, and a port that goes over to
peers has its timer for requests set. -/
theorem Kept.onTimeBut {old new : Port} (kept : Kept old new) {lapsed : Descriptor}
    (others : old.OnTimeBut lapsed) : new.OnTimeBut lapsed := by
  intro fd needed other
  rcases kept.needs needed with before | armed
  · exact kept.timers fd (others fd before other)
  · exact armed

/-- The same without an exception. -/
theorem Kept.onTime {old new : Port} (kept : Kept old new) (onTime : old.OnTime) :
    new.OnTime := by
  intro fd needed
  rcases kept.needs needed with before | armed
  · exact kept.timers fd (onTime fd before)
  · exact armed

/-- What counts of a port is as before. -/
theorem Port.OnTime.congr {old new : Port} (onTime : old.OnTime) (state : new.state = old.state)
    (mechanism : new.delayMechanism = old.delayMechanism)
    (timers : new.running.timers = old.running.timers) : new.OnTime := by
  intro fd needed
  rw [timers]
  rw [state, mechanism] at needed
  exact onTime fd needed

/-- A port that is not enabled needs no timer. -/
theorem enabled_of_needs {state : PortState} {mechanism : DelayMechanism} {fd : Descriptor}
    (needed : state.needs mechanism fd) : portIsEnabled state := by
  cases state <;> cases fd <;> simp_all [PortState.needs, PortState.tracks, portIsEnabled]

/-! ## Updates -/

/-- Without an attempt at initialisation the port is left as it is. -/
theorem attempt_quiet (quiet : (updateOf c a p event mdiff s).initialized = false) :
    attempt c a p event mdiff s = s.ask := by
  rcases updateOf_cases c a s p event mdiff with direct | ⟨_, attempted⟩
  · unfold attempt
    rw [direct]
    rfl
  · rw [attempted] at quiet
    cases quiet

/-- Initialisation sets no timer but one. -/
theorem attempt_timers (attempted : (updateOf c a p event mdiff s).initialized = true) :
    ((attempt c a p event mdiff s).ports p).running.timers =
      Function.update (fun _ => false) .announceTimer (a.starts p s.asked) := by
  unfold attempt
  dsimp only
  rw [if_pos attempted]
  unfold portInitialize
  dsimp only
  rw [withRunning_same]

/-- A port that is enabled after an event was so before, or is LISTENING. -/
theorem machine_enables (enabled : portIsEnabled (c.machine (s.ports p).state event mdiff)) :
    portIsEnabled (s.ports p).state ∨
      c.machine (s.ports p).state event mdiff = .listening := by
  generalize (s.ports p).state = state at enabled ⊢
  unfold Clock.machine at enabled ⊢
  split at enabled
  next slaveOnly =>
    rw [if_pos slaveOnly]
    cases state <;> cases event <;> simp_all [ptpSlaveFsm, portIsEnabled]
  next bothRoles =>
    rw [if_neg bothRoles]
    cases state <;> cases event <;> simp_all [ptpFsm, portIsEnabled]

/-! ## Transitions -/

/-- A timer that is stopped is no other one. -/
theorem clrTmo_other {fd other : Descriptor} (differ : other ≠ fd) :
    ((clrTmo p fd s).ports p).running.timers other = (s.ports p).running.timers other := by
  unfold clrTmo
  rw [withRunning_same]
  exact Function.update_of_ne differ ..

/-- Stopping all timers leaves that for requests, which is set and stopped elsewhere. -/
theorem clrTimers_delay : ((clrTimers p s).ports p).running.timers .delayTimer =
    (s.ports p).running.timers .delayTimer := by
  simp [clrTimers, clrTmo_other]

/-- A timer that was set first is still set. -/
theorem setTmo_both (first second : Descriptor) :
    ((setTmo p second (setTmo p first s)).ports p).running.timers first = true :=
  (aside_setTmo second p).timers first (setTmo_armed first)

/-- What `port_e2e_transition` sets is what is needed without the peer delay mechanism. -/
theorem portE2eTransition_timers {next : PortState} {mechanism : DelayMechanism}
    (other : mechanism ≠ .p2p) {fd : Descriptor} (needed : next.needs mechanism fd) :
    ((portE2eTransition p next s).ports p).running.timers fd = true := by
  unfold portE2eTransition
  cases next <;> cases fd <;> simp [PortState.needs, PortState.tracks, other] at needed
  case listening.announceTimer | passive.announceTimer => exact setTmo_armed _
  case preMaster.qualificationTimer => exact setTmo_armed _
  case master.mannoTimer | grandMaster.mannoTimer => exact setTmo_both _ _
  case master.syncTxTimer | grandMaster.syncTxTimer => exact setTmo_armed _
  case uncalibrated.announceTimer | slave.announceTimer => exact setTmo_both _ _
  case uncalibrated.delayTimer | slave.delayTimer => exact setTmo_armed _

/-- `port_p2p_transition` leaves the delay timer running, and sets the others. -/
theorem portP2pTransition_timers {next : PortState}
    (delay : next ≠ .listening → portIsEnabled next →
      (s.ports p).running.timers .delayTimer) {fd : Descriptor} (needed : next.needs .p2p fd) :
    ((portP2pTransition p next s).ports p).running.timers fd = true := by
  have left : next ≠ .listening → portIsEnabled next →
      ((clrTimers p s).ports p).running.timers .delayTimer = true := by
    rw [clrTimers_delay]
    exact delay
  unfold portP2pTransition
  cases next <;> cases fd <;> simp [PortState.needs, PortState.tracks, portIsEnabled] at needed
  case listening.announceTimer => exact setTmo_both _ _
  case listening.delayTimer => exact setTmo_armed _
  case preMaster.qualificationTimer => exact setTmo_armed _
  case preMaster.delayTimer => exact (aside_setTmo _ p).timers _ (left (by decide) rfl)
  case master.mannoTimer | grandMaster.mannoTimer => exact setTmo_both _ _
  case master.syncTxTimer | grandMaster.syncTxTimer => exact setTmo_armed _
  case master.delayTimer | grandMaster.delayTimer =>
    exact ((aside_setTmo _).trans (aside_setTmo _) p).timers _ (left (by decide) rfl)
  case passive.announceTimer | slave.announceTimer | uncalibrated.announceTimer =>
    exact setTmo_armed _
  case passive.delayTimer | slave.delayTimer =>
    exact (aside_setTmo _ p).timers _ (left (by decide) rfl)
  case uncalibrated.delayTimer =>
    exact ((aside_flushLastSync.trans aside_flushPeerDelay).trans (aside_setTmo _) p).timers _
      (left (by decide) rfl)

/-! ## Dispatches -/

/-- The port does not come back to LISTENING from LISTENING by an initialisation. -/
def Uninterrupted (c : Clock) (a : Answers) (p : Nat) (event : FsmEvent) (mdiff : Bool)
    (s : ClockState) : Prop :=
  (s.ports p).state = .listening → (s.ports p).delayMechanism = .p2p →
    (updateOf c a p event mdiff s).next = .listening →
    (updateOf c a p event mdiff s).initialized = false

/-- A port that does not change its state has the timers that it needs. -/
theorem attempt_onTime (uninterrupted : Uninterrupted c a p event mdiff s)
    (before : (s.ports p).OnTime)
    (still : (updateOf c a p event mdiff s).next = (s.ports p).state) :
    ((attempt c a p event mdiff s).ports p).OnTime := by
  rcases updateOf_cases c a s p event mdiff with direct | ⟨_, attempted⟩
  · have quiet : attempt c a p event mdiff s = s.ask := attempt_quiet (by rw [direct])
    rw [quiet]
    exact before
  · have settles := settles_attempt c a p event mdiff s
    have timers : ((attempt c a p event mdiff s).ports p).running.timers =
        Function.update (fun _ => false) .announceTimer (a.starts p s.asked) :=
      attempt_timers (by rw [attempted])
    rw [attempted] at still
    cases starts : a.starts p s.asked
    · rw [starts] at still
      intro fd needed
      rw [settles.state, ← still] at needed
      exact absurd (enabled_of_needs needed) nofun
    · rw [starts] at still timers
      have listening : (s.ports p).state = .listening := still.symm
      intro fd needed
      rw [settles.state, settles.delayMechanism, listening] at needed
      rw [timers]
      cases fd <;> simp [PortState.needs, PortState.tracks, portIsEnabled] at needed
      case announceTimer => exact Function.update_self ..
      case delayTimer =>
        have quiet := uninterrupted listening needed (by rw [attempted, starts]; rfl)
        rw [attempted] at quiet
        cases quiet

/-- What is left to a port that comes to another state than LISTENING. -/
theorem portUpdate_delay (before : (s.ports p).OnTimeBut .qualificationTimer)
    (peers : (s.ports p).delayMechanism = .p2p)
    (heard : (updateOf c a p event mdiff s).next ≠ .listening)
    (enabled : portIsEnabled (updateOf c a p event mdiff s).next) :
    ((portUpdate c a p event mdiff s).2.ports p).running.timers .delayTimer := by
  have direct := updateOf_direct heard fun faulty => by
    rw [faulty] at enabled
    cases enabled
  have quiet : attempt c a p event mdiff s = s.ask := attempt_quiet (by rw [direct])
  have armed : (s.ports p).running.timers .delayTimer := by
    rw [direct] at heard enabled
    rcases machine_enables enabled with works | listening
    · exact before .delayTimer (Or.inr ⟨peers, works⟩) nofun
    · exact absurd listening heard
  rw [portUpdate_eq, quiet]
  split
  · exact armed
  · obtain ⟨_, same⟩ := scratch_state (s.ask.withPort p fun port =>
      { port with state := (updateOf c a p event mdiff s).next }) (c.newMessage p .management)
    rw [same]
    dsimp only
    rw [withPort_same]
    exact armed

/-- A transition sets what the new state needs. The timer for requests of a port that measures peers
is not set again, so the transition must not come from an initialisation that stopped it. -/
theorem bcTransition_onTime (uninterrupted : Uninterrupted c a p event mdiff s)
    (before : (s.ports p).OnTimeBut .qualificationTimer)
    (idle : (updateOf c a p event mdiff s).next = (s.ports p).state → (s.ports p).OnTime) :
    ((bcTransition c a p event mdiff s).2.ports p).OnTime := by
  have state := portUpdate_state c a p event mdiff s
  have mechanism := (touches_portUpdate c a p event mdiff s).delayMechanism
  have changed := portUpdate_changed c a p event mdiff s
  have delay := @portUpdate_delay c a s p event mdiff before
  rw [bcTransition_eq]
  dsimp only
  split
  next same =>
    have still : (updateOf c a p event mdiff s).next = (s.ports p).state := by
      by_contra differ
      rw [changed.mpr differ] at same
      cases same
    rw [portUpdate_eq, if_pos still]
    exact attempt_onTime uninterrupted (idle still) still
  split
  next peers =>
    have settles := settles_portP2pTransition (c := c) (p := p)
      (s := (portUpdate c a p event mdiff s).2) ((portUpdate c a p event mdiff s).2.ports p).state
    intro fd needed
    rw [settles.state, settles.delayMechanism, peers] at needed
    apply portP2pTransition_timers _ needed
    rw [state]
    exact delay (mechanism ▸ peers)
  next other =>
    have settles := settles_portE2eTransition (c := c) (p := p)
      (s := (portUpdate c a p event mdiff s).2) ((portUpdate c a p event mdiff s).2.ports p).state
    intro fd needed
    rw [settles.state, settles.delayMechanism] at needed
    exact portE2eTransition_timers other needed

/-- A fault on the way to UNCALIBRATED leads to another state. -/
theorem bcDispatch_onTime (uninterrupted : Uninterrupted c a p event mdiff s)
    (before : (s.ports p).OnTimeBut .qualificationTimer)
    (idle : (updateOf c a p event mdiff s).next = (s.ports p).state → (s.ports p).OnTime) :
    ((bcDispatch c a p event mdiff s).ports p).OnTime := by
  have moved : ((bcTransition c a p event mdiff s).2.ports p).OnTime :=
    bcTransition_onTime uninterrupted before idle
  have switched : Aside (bcTransition c a p event mdiff s).2
      (clockSwitchPhc a p (bcTransition c a p event mdiff s).2).2 := by
    unfold clockSwitchPhc
    split <;> exact Aside.of_ports rfl
  rw [bcDispatch_eq]
  dsimp only
  split
  next condition =>
    split
    next => exact (switched p).onTime moved
    next failed =>
      simp only [Bool.and_eq_true, decide_eq_true_eq] at condition
      generalize clockSwitchPhc a p (bcTransition c a p event mdiff s).2 = result at switched ⊢
      have typed : Aside (bcTransition c a p event mdiff s).2
          (withFaultType p .switchPhc result.2) :=
        switched.trans (aside_withPort (Kept.minor _ _ _ _ _ _ _ fun _ => id))
      have uncalibrated := (typed p).state.trans condition.2
      have onTime := (typed p).onTime moved
      apply bcTransition_onTime _ (onTime.but _) fun _ => onTime
      intro listening
      rw [uncalibrated] at listening
      cases listening
  next => exact moved

/-- An event at a port of an ordinary or boundary clock. -/
theorem portDispatch_onTime (fixed : ¬c.relays) (uninterrupted : Uninterrupted c a p event mdiff s)
    (before : (s.ports p).OnTimeBut .qualificationTimer)
    (idle : (updateOf c a p event mdiff s).next = (s.ports p).state → (s.ports p).OnTime) :
    ((portDispatch c a p event mdiff s).ports p).OnTime := by
  unfold portDispatch
  split
  next => exact bcDispatch_onTime uninterrupted before idle
  next => exact bcDispatch_onTime uninterrupted before idle
  next relays => exact absurd (Or.inl relays) fixed
  next relays => exact absurd (Or.inr relays) fixed

/-- A LISTENING port is not initialised but for a fault. -/
theorem uninterrupted_of_event (fault : event ≠ .faultDetected) (start : event ≠ .initializeEvent)
    (powerup : event ≠ .powerup) : Uninterrupted c a p event mdiff s := by
  intro listening _ _
  rcases updateOf_cases c a s p event mdiff with direct | ⟨attempts, _⟩
  · rw [direct]
  · exfalso
    unfold Attempts at attempts
    rw [listening] at attempts
    unfold Clock.machine at attempts
    split at attempts
    · cases event <;> simp_all [ptpSlaveFsm]
    · cases event <;> simp_all [ptpFsm]

/-- A port that does not listen has nothing to interrupt. -/
theorem uninterrupted_of_other (other : (s.ports p).state ≠ .listening) :
    Uninterrupted c a p event mdiff s := fun listening => absurd listening other

/-- A fault disturbs a LISTENING port exactly if it is cleared at once with success. -/
theorem uninterrupted_of_fault (runs : ¬Restarts c a p s) :
    Uninterrupted c a p .faultDetected mdiff s := by
  intro listening peers heard
  rcases updateOf_cases c a s p .faultDetected mdiff with direct | ⟨attempts, attempted⟩
  · rw [direct]
  · exfalso
    apply runs
    have faulty : c.machine .listening .faultDetected mdiff = .faulty := by
      unfold Clock.machine
      split <;> rfl
    unfold Attempts at attempts
    rw [listening, faulty] at attempts
    rw [attempted] at heard
    refine ⟨listening, peers, ?_, ?_⟩
    · rcases attempts with ⟨_, asap⟩ | impossible
      · exact asap
      · cases impossible
    · by_contra failed
      simp [failed] at heard

/-- A port that is started again so is left without its delay timer. -/
theorem restarts_stops (fixed : ¬c.relays) (restarts : Restarts c a p s) :
    ¬((portDispatch c a p .faultDetected mdiff s).ports p).OnTime := by
  obtain ⟨listening, peers, asap, starts⟩ := restarts
  have faulty : c.machine .listening .faultDetected mdiff = .faulty := by
    unfold Clock.machine
    split <;> rfl
  have attempted : updateOf c a p .faultDetected mdiff s =
      { next := .listening, disabled := true, initialized := true } := by
    have ends : c.machine .initializing .initComplete false = .listening :=
      machine_initializing c true
    unfold updateOf portStateUpdate
    simp [listening, faulty, asap, starts, machine_faultCleared, ends, portIsEnabled]
  have settles := settles_attempt c a p .faultDetected mdiff s
  have same : portDispatch c a p .faultDetected mdiff s = attempt c a p .faultDetected mdiff s := by
    have still : portUpdate c a p .faultDetected mdiff s =
        (false, attempt c a p .faultDetected mdiff s) := by
      rw [portUpdate_eq, if_pos (by rw [attempted, listening])]
    have moved : bcDispatch c a p .faultDetected mdiff s =
        attempt c a p .faultDetected mdiff s := by
      simp [bcDispatch_eq, bcTransition_eq, still]
    unfold portDispatch
    split
    next => exact moved
    next => exact moved
    next relays => exact absurd (Or.inl relays) fixed
    next relays => exact absurd (Or.inr relays) fixed
  intro onTime
  have needed : (s.ports p).state.needs (s.ports p).delayMechanism .delayTimer := by
    rw [listening, peers]
    exact Or.inr ⟨rfl, rfl⟩
  have armed := onTime .delayTimer
  rw [same, settles.state, settles.delayMechanism, attempt_timers (by rw [attempted])] at armed
  exact absurd (armed needed) (by simp)

end Timers

/-! ## Steps -/

/-- The ports have the timers set that they need, and PRE_MASTER is no state of a slave only
clock. -/
structure Timely (c : Clock) (s : ClockState) : Prop where
  timers : TimersRun c s
  active : c.slaveOnly → ∀ p, (s.ports p).state ≠ .preMaster

/-- A timer of a port may have expired. -/
structure Lapsed (c : Clock) (p : Nat) (fd : Descriptor) (s : ClockState) : Prop where
  others : ∀ q ∈ c.ports, q ≠ p → (s.ports q).OnTime
  port : p ∈ c.ports → (s.ports p).OnTimeBut fd
  active : c.slaveOnly → ∀ p, (s.ports p).state ≠ .preMaster

section Steps

variable {c : Clock} {a : Answers} {s t u : ClockState} {p : Nat} {fd : Descriptor}

/-- All timers are running but for the one that has just expired. -/
theorem Timely.lapsed (timely : Timely c s) : Lapsed c p fd s where
  others := fun q member _ => timely.timers q member
  port := fun member => (timely.timers p member).but fd
  active := timely.active

/-- A timer that is cleared is the only one that is missed. -/
theorem Timely.lapse (timely : Timely c s) : Lapsed c p fd (clrTmo p fd s) where
  others := by
    intro q member differ
    unfold clrTmo ClockState.withRunning
    rw [withPort_other differ]
    exact timely.timers q member
  port := by
    intro member other needed differ
    rw [clrTmo_other differ]
    unfold clrTmo at needed
    rw [withRunning_same] at needed
    exact timely.timers p member other needed
  active := by
    intro slaveOnly q
    have same : ((clrTmo p fd s).ports q).state = (s.ports q).state := by
      unfold clrTmo
      by_cases here : q = p
      · subst here
        rw [withRunning_same]
      · exact congrArg Port.state (withPort_other here _)
    rw [same]
    exact timely.active slaveOnly q

/-- A timer that is not needed is not missed. -/
theorem Lapsed.timely (lapsed : Lapsed c p fd s)
    (there : (s.ports p).state.needs (s.ports p).delayMechanism fd →
      (s.ports p).running.timers fd) : Timely c s where
  timers := by
    intro q member
    by_cases here : q = p
    · subst here
      exact (lapsed.port member).onTime there
    · exact lapsed.others q member here
  active := lapsed.active

/-- A step aside leaves that. -/
theorem Lapsed.aside (lapsed : Lapsed c p fd s) (aside : Aside s t) : Lapsed c p fd t where
  others := fun q member differ => (aside q).onTime (lapsed.others q member differ)
  port := fun member => (aside p).onTimeBut (lapsed.port member)
  active := by
    intro slaveOnly q
    rw [(aside q).state]
    exact lapsed.active slaveOnly q

/-- The same where none has expired. -/
theorem Timely.aside (timely : Timely c s) (aside : Aside s t) : Timely c t where
  timers := fun q member => (aside q).onTime (timely.timers q member)
  active := by
    intro slaveOnly q
    rw [(aside q).state]
    exact timely.active slaveOnly q

/-- The timer is set again while its expiry is handled. -/
theorem Lapsed.resumed (lapsed : Lapsed c p fd s) (first : Aside s t)
    (second : Aside (setTmo p fd t) u) : Timely c u := by
  have set : Aside s (setTmo p fd t) := first.trans (aside_setTmo fd)
  exact ((lapsed.aside set).timely fun _ => setTmo_armed fd).aside second

/-- An event sets the timers of the state that it leads to. An event that leads nowhere must find
all of them running. -/
theorem Lapsed.dispatch {event : FsmEvent} {mdiff : Bool} (fixed : ¬c.relays)
    (lapsed : Lapsed c p .qualificationTimer s)
    (uninterrupted : p ∈ c.ports → Uninterrupted c a p event mdiff s)
    (idle : p ∈ c.ports → (updateOf c a p event mdiff s).next = (s.ports p).state →
      (s.ports p).OnTime) :
    Timely c (portDispatch c a p event mdiff s) where
  timers := by
    intro q member
    by_cases here : q = p
    · subst here
      exact portDispatch_onTime fixed (uninterrupted member) (lapsed.port member) (idle member)
    · rw [portDispatch_elsewhere here]
      exact lapsed.others q member here
  active := by
    intro slaveOnly q
    by_cases here : q = p
    · subst here
      exact portDispatch_unused slaveOnly (Or.inr rfl) (lapsed.active slaveOnly q)
    · rw [portDispatch_elsewhere here]
      exact lapsed.active slaveOnly q

/-- The same where none has expired. -/
theorem Timely.dispatch {event : FsmEvent} {mdiff : Bool} (fixed : ¬c.relays)
    (timely : Timely c s) (uninterrupted : p ∈ c.ports → Uninterrupted c a p event mdiff s) :
    Timely c (portDispatch c a p event mdiff s) :=
  timely.lapsed.dispatch fixed uninterrupted fun member _ => timely.timers p member

/-- No fault that comes with a step is dispatched to a port that it restarts. -/
structure Continues (c : Clock) (a : Answers) (p : Nat) (fd : Descriptor) (s : ClockState) :
    Prop where
  event : (portEvent c a p fd s).1 = .faultDetected → ¬Restarts c a p (portEvent c a p fd s).2
  links : fd = .rtnl → ∀ before news after, a.links = before ++ news :: after →
    ∀ t, linkFault a p (before.foldl (portLinkStatus c a p) s) news = some t → ¬Restarts c a p t

/-- What a descriptor may put to a port. -/
theorem Continues.admissible (fixed : ¬c.relays) (continues : Continues c a p fd s) :
    Admissible c a (fun q event t => Uninterrupted c a q event false t) p fd s where
  synchronizes := fun _ =>
    ⟨uninterrupted_of_event nofun nofun nofun, uninterrupted_of_event nofun nofun nofun⟩
  egress := fun relays => absurd relays fixed
  links := fun rtnl before news after split _ found =>
    uninterrupted_of_fault (continues.links rtnl before news after split _ found)

/-- The handling of a descriptor, up to its event, sets the timer again that has expired. -/
theorem portEvent_timely (fixed : ¬c.relays) (lapsed : Lapsed c p fd s)
    (continues : Continues c a p fd s) (other : fd ≠ .qualificationTimer) :
    Timely c (portEvent c a p fd s).2 := by
  have unneeded (spare : ∀ state mechanism, ¬PortState.needs state mechanism fd) :
      Timely c (portEvent c a p fd s).2 := by
    have timely : Timely c s := lapsed.timely fun needed => absurd needed (spare _ _)
    apply (portEvent_steps (continues.admissible fixed)).keeps timely
    · exact fun _ _ aside timely => timely.aside aside
    · exact fun _ _ _ uninterrupted timely => timely.dispatch fixed fun _ => uninterrupted
  have own : portEvent c a p fd s = bcEvent c a p fd s := by
    unfold portEvent
    split
    next => rfl
    next => rfl
    next relays => exact absurd (Or.inl relays) fixed
    next relays => exact absurd (Or.inr relays) fixed
  cases fd with
  | event | general | syncRxTimer | rtnl => exact unneeded fun _ _ => id
  | qualificationTimer => exact absurd rfl other
  | announceTimer =>
    rw [own]
    apply lapsed.resumed (aside_clearBest (p := p))
    unfold bcEvent bcTimeout
    dsimp only
    split <;> exact aside_delayReqPrune
  | delayTimer =>
    rw [own]
    exact lapsed.resumed (Aside.refl s) (aside_delayReqPrune.trans aside_portDelayRequest)
  | mannoTimer =>
    rw [own]
    exact lapsed.resumed (Aside.refl s) aside_portTxAnnounce
  | syncTxTimer =>
    rw [own]
    exact lapsed.resumed (Aside.refl s) aside_portTxSync

/-- The expiry of a qualification timer ends the state that needs it. -/
theorem updateOf_qualified (expires : (s.ports p).state = .preMaster)
    (active : c.slaveOnly → (s.ports p).state ≠ .preMaster) :
    (updateOf c a p .qualificationTimeoutExpires false s).next ≠ (s.ports p).state := by
  have led : c.machine .preMaster .qualificationTimeoutExpires false = .master := by
    unfold Clock.machine
    split
    next slaveOnly => exact absurd expires (active slaveOnly)
    next => rfl
  rcases updateOf_cases c a s p .qualificationTimeoutExpires false with direct | ⟨attempts, _⟩
  · rw [direct, expires, led]
    nofun
  · unfold Attempts at attempts
    rw [expires, led] at attempts
    rcases attempts with ⟨impossible, _⟩ | impossible
    · cases impossible
    · cases impossible

/-- A descriptor whose timer has expired sets it again, or puts an event that leads to a state
without it. -/
theorem handleDescriptor_timely (fixed : ¬c.relays) (lapsed : Lapsed c p fd s)
    (continues : Continues c a p fd s) : Timely c (handleDescriptor c a p fd s) := by
  have raised := raised_portEvent (c := c) (a := a) (s := s) p fd
  rw [handleDescriptor_eq]
  dsimp only
  by_cases qualification : fd = .qualificationTimer
  · subst qualification
    have same : portEvent c a p .qualificationTimer s = (.qualificationTimeoutExpires, s) := by
      unfold portEvent
      split <;> rfl
    rw [same]
    apply lapsed.dispatch fixed
    · exact fun _ => uninterrupted_of_event nofun nofun nofun
    · intro member still
      apply (lapsed.port member).onTime
      intro expires
      exact absurd still (updateOf_qualified expires fun slaveOnly => lapsed.active slaveOnly p)
  · have timely := portEvent_timely fixed lapsed continues qualification
    have condition := continues.event
    generalize portEvent c a p fd s = done at raised timely condition ⊢
    have noted : Aside done.2 (if done.1 = .stateDecisionEvent ∨
        done.1 = .announceReceiptTimeoutExpires then { done.2 with sde := true } else done.2) := by
      split
      · exact Aside.of_ports rfl
      · exact Aside.refl _
    apply (timely.aside noted).dispatch fixed
    intro _
    by_cases fault : done.1 = .faultDetected
    · rw [fault]
      apply uninterrupted_of_fault
      simpa using condition fault
    · apply uninterrupted_of_event fault
      · rintro start
        rw [start] at raised
        simp [Raised] at raised
      · rintro powerup
        rw [powerup] at raised
        simp [Raised] at raised

/-- States, mechanisms and timers are the same. -/
theorem Timely.congr (timely : Timely c s) (same : ∀ q, (t.ports q).state = (s.ports q).state ∧
    (t.ports q).delayMechanism = (s.ports q).delayMechanism ∧
    (t.ports q).running.timers = (s.ports q).running.timers) : Timely c t where
  timers := fun q member => (timely.timers q member).congr (same q).1 (same q).2.1 (same q).2.2
  active := by
    intro slaveOnly q
    rw [(same q).1]
    exact timely.active slaveOnly q

/-- A port is initialised again, with what a listening port needs. -/
theorem handleFaultTimer_timely (fixed : ¬c.relays) (timely : Timely c s) :
    Timely c (handleFaultTimer c a p s) := by
  have disarmed : Timely c (disarmFault p s) := by
    apply timely.congr
    intro q
    obtain ⟨_, same⟩ := disarmFault_port p q s
    rw [same]
    exact ⟨rfl, rfl, rfl⟩
  unfold handleFaultTimer
  dsimp only
  split
  · exact disarmed.dispatch fixed fun _ => uninterrupted_of_event nofun nofun nofun
  · exact disarmed

/-- The UDS port is none of the network ports. -/
theorem handleUds_timely (fixed : ¬c.relays) (timely : Timely c s) :
    Timely c (handleUds c a fd s) := by
  have admissible : Admissible c a (fun q _ _ => q = 0) 0 fd s :=
    ⟨fun _ => ⟨rfl, rfl⟩, fun relays => absurd relays fixed, fun _ _ _ _ _ _ _ => rfl⟩
  have done : Timely c (portEvent c a 0 fd s).2 := by
    apply (portEvent_steps admissible).keeps timely
    · exact fun _ _ aside timely => timely.aside aside
    · rintro _ _ _ rfl timely
      exact timely.dispatch fixed fun member => absurd member (zero_not_mem_ports c)
  unfold handleUds
  dsimp only
  split
  · exact done.aside (Aside.of_ports rfl)
  · exact done

/-- A port is told what to do. -/
theorem recommend_timely (fixed : ¬c.relays) {freshBest : Bool} (timely : Timely c s) :
    Timely c (recommend c a freshBest s p) := by
  obtain ⟨_, _, _, _, _, _, same⟩ := informed_state (c := c) (bmcStateDecision c p s) s
  have informs : Aside s (informed c (bmcStateDecision c p s) s) := Aside.of_ports (by rw [same])
  obtain ⟨_, start, powerup⟩ := recommendation_known (bmcStateDecision c p s)
  rw [recommend_eq]
  apply (timely.aside informs).dispatch fixed
  intro _
  apply uninterrupted_of_event _ start powerup
  rcases bmcStateDecision_known (c := c) p s with same | same | same | same | same <;>
    rw [same] <;> nofun

/-- A state decision is made if it was asked for. -/
theorem handleDecision_timely (fixed : ¬c.relays) (timely : Timely c s) :
    Timely c (handleDecision c a s) := by
  have began : Timely c (decided c a s).2 := by
    obtain ⟨_, _, _, _, _, _, _, each, same⟩ := decided_state (c := c) (a := a) s
    apply timely.congr
    intro q
    obtain ⟨_, _, here⟩ := each q
    rw [same]
    dsimp only
    rw [here]
    exact ⟨rfl, rfl, rfl⟩
  have walk : ∀ (list : List Nat) (t : ClockState), Timely c t →
      Timely c (list.foldl (recommend c a (decided c a s).1) t) := by
    intro list
    induction list with
    | nil => exact fun _ timely => timely
    | cons p rest inductionHypothesis =>
      exact fun t timely => inductionHypothesis _ (recommend_timely fixed timely)
  unfold handleDecision
  split
  · have told := walk c.ports _ began
    rw [← handleStateDecisionEvent_eq] at told
    exact told.aside (Aside.of_ports rfl)
  · exact timely

/-! ## Runs -/

/-- A step dispatches no fault to a port that it restarts. -/
def NoRestart (c : Clock) (s : PollState) : PollStep → Prop
  | .descriptor p fd a => s.faulted = false → Continues c a p fd (clrTmo p fd s.clock)
  | _ => True

/-- One step of the loop, by its kind. -/
theorem timedStep_timely (fixed : ¬c.relays) {s : PollState} {step : PollStep}
    (timely : Timely c s.clock) (unbroken : NoRestart c s step) :
    Timely c (timedStep c s step).clock := by
  cases step with
  | enter p => exact timely
  | descriptor p fd a =>
    cases faulted : s.faulted with
    | true =>
      simp only [timedStep, LinuxPtp.lapse, pollStep, faulted, if_true]
      exact timely
    | false =>
      have done := handleDescriptor_timely fixed timely.lapse (unbroken faulted)
      simp only [timedStep, LinuxPtp.lapse, pollStep, faulted, Bool.false_eq_true, if_false]
      split
      · apply done.congr
        intro q
        obtain ⟨_, same⟩ := armFault_port (c := c) p q (handleDescriptor c a p fd
          (clrTmo p fd s.clock))
        rw [same]
        exact ⟨rfl, rfl, rfl⟩
      · exact done
  | faultTimer p a => exact handleFaultTimer_timely fixed timely
  | uds fd a => exact handleUds_timely fixed timely
  | decide a => exact handleDecision_timely fixed timely

/-- Initialisation ends LISTENING with a change of the state, or FAULTY. -/
theorem clockStart_timely (fixed : ¬c.relays) (timely : Timely c s)
    (idle : ∀ p, (s.ports p).state = .initializing) : Timely c (clockStart c a s) := by
  have walk : ∀ (list : List Nat), list.Nodup → ∀ t, Timely c t →
      (∀ p ∈ list, (t.ports p).state = .initializing) →
      Timely c (list.foldl (fun s p => portDispatch c a p .initializeEvent false s) t) := by
    intro list
    induction list with
    | nil => exact fun _ _ timely _ => timely
    | cons p rest inductionHypothesis =>
      intro distinct t timely idle
      obtain ⟨absent, others⟩ := List.nodup_cons.mp distinct
      have here := idle p List.mem_cons_self
      apply inductionHypothesis others
      · apply timely.dispatch fixed
        intro _
        apply uninterrupted_of_other
        rw [here]
        nofun
      · intro q member
        have differ : q ≠ p := by
          rintro rfl
          exact absent member
        rw [portDispatch_elsewhere differ]
        exact idle q (List.mem_cons_of_mem _ member)
  have distinct : (c.ports ++ [0]).Nodup := by
    apply List.Nodup.append (List.nodup_range' ..) (List.nodup_singleton 0)
    rw [List.disjoint_singleton]
    exact zero_not_mem_ports c
  exact walk _ distinct s timely fun p _ => idle p

/-- In every run of a boundary clock without a fault that restarts a LISTENING port, the network
ports have the timers set that they need in their states.

Proof: each dispatch sets the timers that the new state needs. A descriptor whose timer has expired
sets it again or leads to a state without it. Only an initialisation from LISTENING stops a timer,
that for requests, without a transition that sets it again. -/
theorem timers_run (fixed : ¬c.relays) {start : StartUp} {events : List PollStep}
    (unbroken : Along (timedStep c) (NoRestart c) (start.state c) events) :
    TimersRun c (events.foldl (timedStep c) (start.state c)).clock := by
  have initially : Timely c (start.state c).clock := by
    apply clockStart_timely fixed
    · constructor
      · exact fun p _ fd needed => absurd (enabled_of_needs needed) nofun
      · exact fun _ p => nofun
    · exact fun p => rfl
  have after : Timely c (events.foldl (timedStep c) (start.state c)).clock :=
    unbroken.keeps initially fun _ _ timely here => timedStep_timely fixed timely here
  exact after.timers

end Steps

/-- A boundary clock that measures the delay to its peers, with one interval for all faults. -/
def peerClock (interval : FaultInterval) : Clock :=
  let setup : PortSetup := { delayMechanism := .p2p, faultInterval := fun _ => interval }
  { smallClock with setup := fun _ => setup }

/-- No port is restarted that waits before it recovers. -/
theorem timers_run_failing :
    TimersRun (peerClock (.log2Seconds 4))
      (([failingPoll].flatMap (Poll.steps (peerClock (.log2Seconds 4)))).foldl
        (timedStep (peerClock (.log2Seconds 4)))
        (plainStart.state (peerClock (.log2Seconds 4)))).clock := by
  have never (a : Answers) (p : Nat) (s : ClockState) :
      ¬Restarts (peerClock (.log2Seconds 4)) a p s := by
    rintro ⟨_, _, asap, _⟩
    cases asap
  apply timers_run
  · rintro (relays | relays)
    · cases relays
    · cases relays
  · apply along_of_forall
    intro step _ s
    cases step with
    | descriptor p fd a =>
      exact fun _ => ⟨fun _ => never a p _, fun _ _ _ _ _ _ _ => never a p _⟩
    | _ => trivial

/-- A port that cannot receive and recovers as soon as possible measures no delay any more. -/
theorem timer_stops : ¬TimersRun (peerClock (.log2Seconds (-128)))
    (([failingPoll].flatMap (Poll.steps (peerClock (.log2Seconds (-128))))).foldl
      (timedStep (peerClock (.log2Seconds (-128))))
      (plainStart.state (peerClock (.log2Seconds (-128))))).clock := by
  intro run
  have stopped : (((([failingPoll].flatMap (Poll.steps (peerClock (.log2Seconds (-128))))).foldl
      (timedStep (peerClock (.log2Seconds (-128))))
      (plainStart.state (peerClock (.log2Seconds (-128))))).clock.ports 1).running.timers
        .delayTimer) = false := by
    decide +kernel
  have state : ((([failingPoll].flatMap (Poll.steps (peerClock (.log2Seconds (-128))))).foldl
      (timedStep (peerClock (.log2Seconds (-128))))
      (plainStart.state (peerClock (.log2Seconds (-128))))).clock.ports 1).state = .listening := by
    decide +kernel
  have mechanism : ((([failingPoll].flatMap (Poll.steps (peerClock (.log2Seconds (-128))))).foldl
      (timedStep (peerClock (.log2Seconds (-128))))
      (plainStart.state (peerClock (.log2Seconds (-128))))).clock.ports 1).delayMechanism = .p2p := by
    decide +kernel
  have armed := run 1 (by decide) .delayTimer
  rw [state, mechanism, stopped] at armed
  cases armed (Or.inr ⟨rfl, rfl⟩)

end LinuxPtp
