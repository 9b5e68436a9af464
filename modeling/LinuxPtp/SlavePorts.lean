import LinuxPtp.OrdinarySteps
import LinuxPtp.TrackedMasters

/-!
# The slave port

A clock follows a master on one port at most. The state decision tells the port of the best master
to follow it and every other port not to, and nothing else makes a port follow a master.

While a state decision goes through the ports, some have been told what to do and some have not.
The invariant of that loop is about the ports that are left: among the others, only the one of the
best master follows.
-/

namespace LinuxPtp

/-- The ports that follow a master. -/
structure SlavePorts (c : Clock) (s : ClockState) : Prop where
  best : ∀ p, (s.ports p).state.tracks → s.best.map Best.port = some p
  mine : ∀ p, (s.ports p).state.tracks → p ∈ c.ports
  slave : ∀ p, (s.ports p).state.tracks → (c.setup p).masterOnly = false

/-- At most one port follows a master, which is the one of the best master of the clock and not
configured to be a master only. -/
def OneSlavePort (c : Clock) (s : ClockState) : Prop :=
  (∀ p q, (s.ports p).state.tracks → (s.ports q).state.tracks → p = q) ∧
    ∀ p, (s.ports p).state.tracks →
      s.best.map Best.port = some p ∧ (c.setup p).masterOnly = false

section Following

variable {c : Clock} {a : Answers} {s t : ClockState} {p : Nat}

/-- Two ports that follow a master would both be the port of the best one. -/
theorem SlavePorts.oneSlavePort (slaves : SlavePorts c s) : OneSlavePort c s := by
  constructor
  · intro p q first second
    have one := slaves.best p first
    rw [slaves.best q second] at one
    exact (Option.some.inj one).symm
  · exact fun p follows => ⟨slaves.best p follows, slaves.slave p follows⟩

/-- The best master is the same, and no port has come to follow. -/
theorem SlavePorts.congr (slaves : SlavePorts c s) (best : t.best = s.best)
    (follows : ∀ p, (t.ports p).state.tracks → (s.ports p).state.tracks) : SlavePorts c t where
  best := by
    intro p here
    rw [best]
    exact slaves.best p (follows p here)
  mine := fun p here => slaves.mine p (follows p here)
  slave := fun p here => slaves.slave p (follows p here)

/-- The best master and all states are the same. -/
theorem SlavePorts.of_states (slaves : SlavePorts c s) (best : t.best = s.best)
    (same : ∀ p, (t.ports p).state = (s.ports p).state) : SlavePorts c t := by
  apply slaves.congr best
  intro p
  rw [same]
  exact id

/-- A fault timer is set. -/
theorem SlavePorts.armFault (slaves : SlavePorts c s) (p : Nat) :
    SlavePorts c (armFault c p s) := by
  refine slaves.of_states (t := LinuxPtp.armFault c p s) rfl ?_
  intro q
  obtain ⟨_, same⟩ := armFault_port (c := c) p q s
  rw [same]

/-- A fault timer is stopped. -/
theorem SlavePorts.disarmFault (slaves : SlavePorts c s) (p : Nat) :
    SlavePorts c (disarmFault p s) := by
  refine slaves.of_states (t := LinuxPtp.disarmFault p s) rfl ?_
  intro q
  obtain ⟨_, same⟩ := disarmFault_port p q s
  rw [same]

/-! ## Outside of decisions -/

/-- One effect of a descriptor, which makes no port follow that did not before and leaves the best
master. -/
theorem Effect.slavePorts {before : ClockState}
    (effect : Effect c a (Guards.undecided c a before p) s t) (slaves : SlavePorts c s) :
    SlavePorts c t := by
  apply slaves.congr effect.undecided.best
  intro q follows
  exact (effect.tracks follows).elim id False.elim

/-! ## The decision -/

/-- The best master of a port was not found on one that is to be a master only. -/
theorem electFrom_slave {list : List Nat} {best : Option Best} {b : Best}
    (before : ∀ b, best = some b → (c.setup b.port).masterOnly = false)
    (elected : (electFrom c a list best s).1 = some b) : (c.setup b.port).masterOnly = false := by
  induction list generalizing best s with
  | nil => exact before b elected
  | cons p rest inductionHypothesis =>
    rw [electFrom_cons] at elected
    apply inductionHypothesis _ elected
    intro b kept
    rcases keepBest_cases kept with earlier | ⟨fc, found, rfl⟩
    · exact before b earlier
    · rw [portComputeBest_best] at found
      have candidate := elect_mem found
      unfold candidates at candidate
      split at candidate
      · cases candidate
      next slave => exact Bool.eq_false_iff.mpr slave

/-- What holds while the ports that are left are told what to do. -/
structure Assigned (c : Clock) (dds : DefaultDataSet) (rest : List Nat) (s : ClockState) :
    Prop where
  still : s.dds = dds
  mine : ∀ p, (s.ports p).state.tracks → p ∈ c.ports
  slave : ∀ b, s.best = some b → (c.setup b.port).masterOnly = false
  told : ∀ p, p ∉ rest → (s.ports p).state.tracks →
    s.best.map Best.port = some p ∧ ¬dds.clockQuality.clockClass ≤ 127

/-- A state decision has chosen a best master: the ports that still follow the one before are all to
be told. -/
theorem decided_assigned (slaves : SlavePorts c s) :
    Assigned c s.dds c.ports (decided c a s).2 := by
  obtain ⟨msgs, ports, each, same⟩ := electFrom_state (c := c) (a := a) c.ports none s
  have elected : (electBest c a c.ports s).2 = { s with msgs := msgs, ports := ports } := same
  have states : ∀ p, ((electBest c a c.ports s).2.ports p).state = (s.ports p).state := by
    intro p
    obtain ⟨_, _, here⟩ := each p
    rw [elected]
    dsimp only
    rw [here]
  unfold decided
  rw [adoptBest_eq]
  constructor
  · change (electBest c a c.ports s).2.dds = s.dds
    rw [elected]
  · intro p follows
    change ((electBest c a c.ports s).2.ports p).state.tracks at follows
    rw [states] at follows
    exact slaves.mine p follows
  · intro b best
    apply electFrom_slave _ best
    intro b impossible
    cases impossible
  · intro p absent follows
    change ((electBest c a c.ports s).2.ports p).state.tracks at follows
    rw [states] at follows
    exact absurd (slaves.mine p follows) absent

/-- A port is told to follow a master if its own is the best one, and the clock is not of a class
that follows none. -/
theorem bmcStateDecision_slave (slave : bmcStateDecision c p s = .slave) :
    s.best.map Best.port = some p ∧ ¬s.dds.clockQuality.clockClass ≤ 127 := by
  unfold bmcStateDecision at slave
  dsimp only at slave
  split at slave
  next listening =>
    rw [slave] at listening
    cases listening.2
  split at slave
  · split at slave <;> cases slave
  next class' =>
    split at slave
    · cases slave
    split at slave
    next best => exact ⟨best, class'⟩
    · split at slave <;> cases slave

/-- A port that follows after it was told is that of the best master, at a clock whose class lets it
follow. -/
theorem recommend_tracks {freshBest : Bool}
    (follows : ((recommend c a freshBest s p).ports p).state.tracks) :
    s.best.map Best.port = some p ∧ ¬s.dds.clockQuality.clockClass ≤ 127 := by
  obtain ⟨_, _, _, _, _, _, same⟩ := informed_state (c := c) (bmcStateDecision c p s) s
  have ports : (informed c (bmcStateDecision c p s) s).ports = s.ports := by rw [same]
  apply bmcStateDecision_slave
  by_contra other
  have demoted := updateOf_demotes (c := c) (a := a) (p := p)
    (s := informed c (bmcStateDecision c p s) s) freshBest (by
      rw [ports]
      exact recommendation_demotes other)
  rw [recommend_eq] at follows
  rcases portDispatch_state c a p (recommendation (bmcStateDecision c p s)) freshBest
    (informed c (bmcStateDecision c p s) s) with led | ⟨_, faulty | listening⟩
  · rw [led, demoted] at follows
    cases follows
  · rw [faulty] at follows
    cases follows
  · rw [listening] at follows
    cases follows

/-- One port is told what to do, so it is no longer among those that are still to be told. -/
theorem recommend_assigned {freshBest : Bool} {dds : DefaultDataSet} {rest : List Nat}
    (mine : p ∈ c.ports) (assigned : Assigned c dds (p :: rest) s) :
    Assigned c dds rest (recommend c a freshBest s p) := by
  have told : ((recommend c a freshBest s p).ports p).state.tracks → _ := recommend_tracks
  obtain ⟨_, _, _, _, _, _, same⟩ := informed_state (c := c) (bmcStateDecision c p s) s
  obtain ⟨_, _, _, _, port, frame⟩ := (portDispatch_touches c a p
    (recommendation (bmcStateDecision c p s)) freshBest
    (informed c (bmcStateDecision c p s) s)).frame
  rw [recommend_eq, frame, same] at told ⊢
  dsimp only at told ⊢
  constructor
  · exact assigned.still
  · intro q follows
    dsimp only at follows
    by_cases here : q = p
    · exact here ▸ mine
    · rw [Function.update_of_ne here] at follows
      exact assigned.mine q follows
  · exact assigned.slave
  · intro q later follows
    dsimp only at follows ⊢
    by_cases here : q = p
    · subst here
      exact assigned.still ▸ told follows
    · rw [Function.update_of_ne here] at follows
      exact assigned.told q (by simp [here, later]) follows

/-- All ports are told, by induction on the list of ports. -/
theorem handleStateDecisionEvent_assigned (slaves : SlavePorts c s) :
    Assigned c s.dds [] (handleStateDecisionEvent c a s) := by
  have walk : ∀ (list : List Nat), (∀ p ∈ list, p ∈ c.ports) → ∀ t, Assigned c s.dds list t →
      Assigned c s.dds [] (list.foldl (recommend c a (decided c a s).1) t) := by
    intro list
    induction list with
    | nil => exact fun _ _ assigned => assigned
    | cons p rest inductionHypothesis =>
      intro mine t assigned
      exact inductionHypothesis (fun q member => mine q (List.mem_cons_of_mem _ member)) _
        (recommend_assigned (mine p List.mem_cons_self) assigned)
  rw [handleStateDecisionEvent_eq]
  exact walk c.ports (fun _ member => member) _ (decided_assigned slaves)

/-- Once no port is left to be told, only the port of the best master follows. -/
theorem Assigned.slavePorts {dds : DefaultDataSet} (assigned : Assigned c dds [] s) :
    SlavePorts c s where
  best := fun p follows => (assigned.told p List.not_mem_nil follows).1
  mine := assigned.mine
  slave := by
    intro p follows
    obtain ⟨b, best, rfl⟩ :=
      Option.map_eq_some_iff.mp (assigned.told p List.not_mem_nil follows).1
    exact assigned.slave b best

/-- A state decision is made if it was asked for. -/
theorem SlavePorts.handleDecision (slaves : SlavePorts c s) :
    SlavePorts c (handleDecision c a s) := by
  unfold LinuxPtp.handleDecision
  split
  · exact (handleStateDecisionEvent_assigned slaves).slavePorts.of_states rfl fun _ => rfl
  · exact slaves

end Following

/-! ## Runs -/

section Runs

variable {c : Clock} {s : PollState}

/-- One step of the loop, by its kind. -/
theorem pollStep_slavePorts (slaves : SlavePorts c s.clock) (step : PollStep) :
    SlavePorts c (pollStep c s step).clock := by
  by_cases decision : ∃ a, step = .decide a
  · obtain ⟨a, rfl⟩ := decision
    exact slaves.handleDecision
  · apply pollStep_undecided (SlavePorts c) (fun a same => decision ⟨a, same⟩) _ _ _ slaves
    · exact fun a _ p before s t effect slaves => effect.slavePorts slaves
    · exact fun p s slaves => slaves.armFault p
    · exact fun p s slaves => slaves.disarmFault p

/-- No port follows a master when the clock is started. -/
theorem clockStart_follows_none {a : Answers} {s : ClockState}
    (alone : ∀ p, (s.ports p).state.tracks = false) (p : Nat) :
    ((clockStart c a s).ports p).state.tracks = false := by
  unfold clockStart
  generalize c.ports ++ [0] = list
  induction list generalizing s with
  | nil => exact alone p
  | cons q rest inductionHypothesis =>
    apply inductionHypothesis
    intro r
    by_cases here : r = q
    · subst here
      rcases portDispatch_initialises (c := c) (a := a) (s := s) r with faulty | listening
      · rw [faulty]
        rfl
      · rw [listening]
        rfl
    · rw [portDispatch_elsewhere here]
      exact alone r

/-- At the start no port follows a master. -/
theorem slavePorts_start (c : Clock) (start : StartUp) : SlavePorts c (start.state c).clock := by
  have still : ∀ p, ((start.state c).clock.ports p).state.tracks = false :=
    clockStart_follows_none fun _ => rfl
  constructor
  · intro p follows
    rw [still] at follows
    cases follows
  · intro p follows
    rw [still] at follows
    cases follows
  · intro p follows
    rw [still] at follows
    cases follows

/-- At every moment of every run. -/
theorem slavePorts_stateAfter (start : StartUp) (polls : List Poll) (count : Nat) :
    SlavePorts c (stateAfter c start polls count).clock := by
  apply stateAfter_keeps (fun s => SlavePorts c s.clock) polls count (slavePorts_start c start)
  exact fun s step _ _ slaves => pollStep_slavePorts slaves step

/-- At every moment of every run a clock follows a master on one port at most, which is the port of
its best master and not configured to be a master only; and after a state decision made while the
clock is of a class up to 127 it follows none.

Proof: a port comes to follow only when a state decision tells it to be a slave, and the decision
tells that to the port of the best master alone. Every other port that still follows is told to be
something else in the same decision. -/
theorem one_slave_port (start : StartUp) (polls : List Poll) (count : Nat) :
    OneSlavePort c (stateAfter c start polls count).clock ∧
      ((stateAfter c start polls count).clock.dds.clockQuality.clockClass ≤ 127 → ∀ a p,
        ((handleStateDecisionEvent c a (stateAfter c start polls count).clock).ports p).state.tracks
          = false) := by
  have slaves := slavePorts_stateAfter (c := c) start polls count
  refine ⟨slaves.oneSlavePort, ?_⟩
  intro class' a p
  have assigned := handleStateDecisionEvent_assigned (a := a) slaves
  by_contra follows
  exact (assigned.told p List.not_mem_nil (by simpa using follows)).2 class'

end Runs

/-! ## Slave only clocks -/

/-- A port in this state has others follow it, or would. -/
def PortState.leads : PortState → Bool
  | .preMaster | .master | .grandMaster | .passive => true
  | _ => false

/-- No port leads. -/
def NoneLeads (s : ClockState) : Prop := ∀ p, (s.ports p).state.leads = false

section SlaveOnly

variable {c : Clock} {a : Answers} {s t : ClockState} {p : Nat} (slaveOnly : c.slaveOnly)

/-- All states are the same. -/
theorem NoneLeads.of_states (follows : NoneLeads s)
    (same : ∀ p, (t.ports p).state = (s.ports p).state) : NoneLeads t := by
  intro p
  rw [same]
  exact follows p

/-- A step aside leaves all states. -/
theorem NoneLeads.aside (follows : NoneLeads s) (kept : Aside s t) : NoneLeads t :=
  follows.of_states fun p => (kept p).state

include slaveOnly

/-- The state machine of a slave only clock leads to no state of a master, from any state that it
can be in and by any event. -/
theorem machine_follows {state : PortState} {event : FsmEvent} {mdiff : Bool}
    (follows : state.leads = false) : (c.machine state event mdiff).leads = false := by
  unfold Clock.machine
  rw [if_pos slaveOnly]
  cases state <;> cases event <;> cases mdiff <;> simp_all [ptpSlaveFsm, PortState.leads]

/-- An event is put to a port. -/
theorem NoneLeads.dispatch (follows : NoneLeads s) (event : FsmEvent) (mdiff : Bool) :
    NoneLeads (portDispatch c a p event mdiff s) := by
  intro q
  by_cases here : q = p
  · subst here
    rcases portDispatch_state c a q event mdiff s with same | ⟨_, faulty | listening⟩
    · rw [same]
      rcases updateOf_cases c a s q event mdiff with direct | ⟨_, attempted⟩
      · rw [direct]
        exact machine_follows slaveOnly (follows q)
      · rw [attempted]
        dsimp only
        split <;> rfl
    · rw [faulty]
      rfl
    · rw [listening]
      rfl
  · rw [portDispatch_elsewhere here]
    exact follows q

/-- A descriptor is a sequence of steps aside and of events. -/
theorem NoneLeads.portEvent (follows : NoneLeads s) (fd : Descriptor) :
    NoneLeads (portEvent c a p fd s).2 := by
  have admitted : Admissible c a (fun _ _ _ => True) p fd s := by
    constructor <;> intros
    · exact ⟨trivial, trivial⟩
    · trivial
    · trivial
  apply (portEvent_steps admitted).keeps follows
  · exact fun _ _ kept follows => follows.aside kept
  · exact fun _ _ event _ follows => follows.dispatch slaveOnly event false

/-- A descriptor and the event that it raises. -/
theorem NoneLeads.handleDescriptor (follows : NoneLeads s) (fd : Descriptor) :
    NoneLeads (handleDescriptor c a p fd s) := by
  have done : NoneLeads (LinuxPtp.portEvent c a p fd s).2 := follows.portEvent slaveOnly fd
  rw [handleDescriptor_eq]
  dsimp only
  apply NoneLeads.dispatch slaveOnly
  split
  · exact done.of_states fun _ => rfl
  · exact done

/-- A descriptor of the local socket. -/
theorem NoneLeads.handleUds (follows : NoneLeads s) (fd : Descriptor) :
    NoneLeads (handleUds c a fd s) := by
  have done : NoneLeads (LinuxPtp.portEvent c a 0 fd s).2 := follows.portEvent slaveOnly fd
  unfold LinuxPtp.handleUds
  dsimp only
  split
  · exact done.of_states fun _ => rfl
  · exact done

/-- A port is initialised again and listens. -/
theorem NoneLeads.handleFaultTimer (follows : NoneLeads s) (p : Nat) :
    NoneLeads (handleFaultTimer c a p s) := by
  have disarmed : NoneLeads (disarmFault p s) := by
    apply follows.of_states
    intro q
    obtain ⟨_, same⟩ := disarmFault_port p q s
    rw [same]
  unfold LinuxPtp.handleFaultTimer
  dsimp only
  split
  · exact disarmed.dispatch slaveOnly _ false
  · exact disarmed

/-- A master is recommended to no avail. -/
theorem NoneLeads.handleDecision (follows : NoneLeads s) : NoneLeads (handleDecision c a s) := by
  have recommended (freshBest : Bool) (t : ClockState) (p : Nat) (follows : NoneLeads t) :
      NoneLeads (recommend c a freshBest t p) := by
    obtain ⟨_, _, _, _, _, _, same⟩ := informed_state (c := c) (bmcStateDecision c p t) t
    rw [recommend_eq]
    apply NoneLeads.dispatch slaveOnly
    exact follows.of_states fun _ => by rw [same]
  have began : NoneLeads (decided c a s).2 := by
    obtain ⟨_, ports, _, _, _, _, _, each, same⟩ := decided_state (c := c) (a := a) s
    apply follows.of_states
    intro q
    obtain ⟨_, _, here⟩ := each q
    rw [same]
    dsimp only
    rw [here]
  unfold LinuxPtp.handleDecision
  split
  · refine NoneLeads.of_states (s := handleStateDecisionEvent c a s) ?_ fun _ => rfl
    rw [handleStateDecisionEvent_eq]
    generalize (decided c a s).1 = freshBest
    generalize (decided c a s).2 = t at began
    induction c.ports generalizing t with
    | nil => exact began
    | cons p rest inductionHypothesis =>
      exact inductionHypothesis _ (recommended freshBest t p began)
  · exact follows

/-- One step of the loop, by its kind. -/
theorem pollStep_follows {s : PollState} (follows : NoneLeads s.clock) (step : PollStep) :
    NoneLeads (pollStep c s step).clock := by
  cases step with
  | enter p => exact follows
  | descriptor p fd a =>
    apply pollStep_descriptor NoneLeads follows
    · exact fun _ => follows.handleDescriptor slaveOnly fd
    · intro t done
      apply done.of_states
      intro q
      obtain ⟨_, same⟩ := armFault_port (c := c) p q t
      rw [same]
  | faultTimer p a => exact follows.handleFaultTimer slaveOnly p
  | uds fd a => exact follows.handleUds slaveOnly fd
  | decide a => exact follows.handleDecision slaveOnly

/-- At the start the ports are faulty or listen. -/
theorem follows_start (start : StartUp) : NoneLeads (start.state c).clock := by
  have walk : ∀ (list : List Nat) (t : ClockState), NoneLeads t →
      NoneLeads (list.foldl (fun t p => portDispatch c start.answers p .initializeEvent false t) t) := by
    intro list
    induction list with
    | nil => exact fun _ follows => follows
    | cons p rest inductionHypothesis =>
      exact fun t follows => inductionHypothesis _ (follows.dispatch slaveOnly _ false)
  exact walk _ _ fun _ => rfl

/-- At every moment of every run of a slave only clock its ports are FAULTY, LISTENING,
UNCALIBRATED or SLAVE, whatever the state decision recommends.

Proof: the state machine of such a clock leads to no other state, from any of these and by any
event. -/
theorem slave_only_follows (start : StartUp) (polls : List Poll) (count : Nat) {p : Nat}
    (mine : p = 0 ∨ p ∈ c.ports) :
    ((stateAfter c start polls count).clock.ports p).state ∈
      [PortState.faulty, .listening, .uncalibrated, .slave] := by
  have both : Working c (stateAfter c start polls count).clock ∧
      NoneLeads (stateAfter c start polls count).clock := by
    apply stateAfter_keeps (fun s => Working c s.clock ∧ NoneLeads s.clock) polls count
    · exact ⟨clockStart_working _, follows_start slaveOnly start⟩
    · intro s step _ _ both
      exact ⟨pollStep_working step both.1, pollStep_follows slaveOnly both.2 step⟩
  obtain ⟨working, follows⟩ := both
  have enabled := working p mine
  have still := follows p
  generalize ((stateAfter c start polls count).clock.ports p).state = state at enabled still ⊢
  cases state <;> simp_all [PortState.leads]

end SlaveOnly

/-- A clock that is never more than a slave. -/
def slaveClock : Clock := { smallClock with slaveOnly := true }

/-- A run in which a master is elected. -/
theorem slave_only_follows_elected :
    ((stateAfter slaveClock plainStart [electingPoll, electingPoll] 10).clock.ports 1).state ∈
      [PortState.faulty, .listening, .uncalibrated, .slave] :=
  slave_only_follows rfl plainStart [electingPoll, electingPoll] 10 (Or.inr (by decide))

end LinuxPtp
