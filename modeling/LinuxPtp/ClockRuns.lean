import LinuxPtp.Runs
import LinuxPtp.StepEffects

/-!
# Runs of a clock

A run starts with a clock whose ports have been initialised, with or without success, and makes
the steps of one poll after another. From then on no network port and not the UDS port is
INITIALIZING or DISABLED, which the steps of the polls preserve.

A run is a list of steps, and what holds after every prefix of it holds at every moment. The lemma
at the end packages that: an invariant that holds at the start and is kept by every step of a
clock that works holds throughout, under a condition on the steps if there is one.
-/

namespace LinuxPtp

open Runs

/-! ## The state decision -/

section Decision

variable {c : Clock} {a : Answers} {g : Guards} {s : ClockState}

/-- The event that goes with a recommended state. -/
def recommendation : PortState → FsmEvent
  | .listening => .none
  | .grandMaster => .rsGrandMaster
  | .master => .rsMaster
  | .passive => .rsPassive
  | .slave => .rsSlave
  | _ => .faultDetected

/-- What the clock takes over before the event is dispatched. -/
def informed (c : Clock) (recommended : PortState) (s : ClockState) : ClockState :=
  match recommended with
  | .grandMaster => clockUpdateGrandmaster c s
  | .slave => clockUpdateSlave s
  | _ => s

/-- What a port is told: the clock writes down its parent first, and then the event is put to the
port. -/
theorem recommend_eq (freshBest : Bool) (s : ClockState) (p : Nat) :
    recommend c a freshBest s p = portDispatch c a p (recommendation (bmcStateDecision c p s))
      freshBest (informed c (bmcStateDecision c p s) s) := by
  unfold recommend
  cases bmcStateDecision c p s <;> rfl

/-- The states that are recommended. -/
theorem bmcStateDecision_known (p : Nat) (s : ClockState) :
    bmcStateDecision c p s = .listening ∨ bmcStateDecision c p s = .grandMaster ∨
      bmcStateDecision c p s = .master ∨ bmcStateDecision c p s = .passive ∨
      bmcStateDecision c p s = .slave := by
  unfold bmcStateDecision
  dsimp only
  split
  next listening => exact Or.inl listening.2
  split
  · split <;> simp
  split
  · simp
  split
  · simp
  split <;> simp

/-- What is taken over concerns the clock and not its ports. -/
theorem informed_state (recommended : PortState) (s : ClockState) :
    ∃ stepsRemoved parent path tds utcOffset log, informed c recommended s = { s with
      stepsRemoved := stepsRemoved, parent := parent, path := path, tds := tds,
      utcOffset := utcOffset, log := log } := by
  have still : ∃ stepsRemoved parent path tds utcOffset log, s = { s with
      stepsRemoved := stepsRemoved, parent := parent, path := path, tds := tds,
      utcOffset := utcOffset, log := log } :=
    ⟨s.stepsRemoved, s.parent, s.path, s.tds, s.utcOffset, s.log, rfl⟩
  unfold informed
  split
  · exact ⟨_, _, _, _, s.utcOffset, s.log, rfl⟩
  · unfold clockUpdateSlave
    split
    · exact still
    · dsimp only
      split
      · exact ⟨s.stepsRemoved, s.parent, s.path, s.tds, s.utcOffset, _, rfl⟩
      · exact ⟨_, _, s.path, _, _, _, rfl⟩
  · exact still

/-- A state decision never puts the events that initialise or disable. -/
theorem recommendation_known (recommended : PortState) :
    recommendation recommended ≠ .designatedDisabled ∧
      recommendation recommended ≠ .initializeEvent ∧ recommendation recommended ≠ .powerup := by
  cases recommended <;> simp [recommendation]

/-- A recommendation upsets no port that is at work. -/
theorem recommendation_upsets {p : Nat} {state : PortState}
    (upsets : Upsets state (recommendation (bmcStateDecision c p s))) :
    state = .initializing ∨ state = .disabled := by
  obtain ⟨_, init, powerup⟩ := recommendation_known (bmcStateDecision c p s)
  rcases upsets with fault | impossible | impossible | idle
  · exfalso
    rcases bmcStateDecision_known (c := c) p s with same | same | same | same | same <;>
      rw [same] at fault <;> cases fault
  · exact absurd impossible init
  · exact absurd impossible powerup
  · exact idle

/-- A port is told to be a slave only if that was decided. -/
theorem recommendation_slave {p : Nat}
    (slave : recommendation (bmcStateDecision c p s) = .rsSlave) :
    bmcStateDecision c p s = .slave := by
  rcases bmcStateDecision_known (c := c) p s with same | same | same | same | same <;>
    rw [same] at slave ⊢ <;> cases slave

/-- A port follows no master after any other recommendation. -/
theorem machine_demotes (event : FsmEvent) (mdiff : Bool) (state : PortState)
    (demotes : event = .rsGrandMaster ∨ event = .rsMaster ∨ event = .rsPassive ∨
      event = .none ∧ state = .listening) :
    (c.machine state event mdiff).tracks = false := by
  unfold Clock.machine
  rcases demotes with rfl | rfl | rfl | ⟨rfl, rfl⟩
  · split <;> cases state <;> rfl
  · split <;> cases state <;> rfl
  · split <;> cases state <;> rfl
  · split <;> rfl

/-- The events of a decision other than to be a slave lead out of following a master. -/
theorem updateOf_demotes {p : Nat} {event : FsmEvent} (mdiff : Bool)
    (demotes : event = .rsGrandMaster ∨ event = .rsMaster ∨ event = .rsPassive ∨
      event = .none ∧ (s.ports p).state = .listening) :
    (updateOf c a p event mdiff s).next.tracks = false := by
  have machine := machine_demotes (c := c) event mdiff _ demotes
  unfold updateOf portStateUpdate
  dsimp only
  split
  next cleared =>
    rw [cleared.1, machine_faultCleared, if_pos rfl, machine_initializing]
    cases a.starts p s.asked <;> rfl
  next =>
    split
    next initializing =>
      rw [initializing, machine_initializing]
      cases a.starts p s.asked <;> rfl
    next => exact machine

/-- A decision other than to be a slave puts one of these events; a port that listens and has
nothing to decide on is left alone, and follows no master. -/
theorem recommendation_demotes {p : Nat} (other : bmcStateDecision c p s ≠ .slave) :
    recommendation (bmcStateDecision c p s) = .rsGrandMaster ∨
      recommendation (bmcStateDecision c p s) = .rsMaster ∨
      recommendation (bmcStateDecision c p s) = .rsPassive ∨
      recommendation (bmcStateDecision c p s) = .none ∧ (s.ports p).state = .listening := by
  rcases bmcStateDecision_known (c := c) p s with same | same | same | same | same
  · right; right; right
    refine ⟨by rw [same]; rfl, ?_⟩
    unfold bmcStateDecision at same
    dsimp only at same
    split at same
    next listening => exact listening.2
    next => split_ifs at same
  · exact Or.inl (by rw [same]; rfl)
  · exact Or.inr (Or.inl (by rw [same]; rfl))
  · exact Or.inr (Or.inr (Or.inl (by rw [same]; rfl)))
  · exact absurd same other

/-- The dispatch of a recommendation as a sequence of effects. -/
theorem recommend_works {freshBest : Bool} {p : Nat} (fresh : Fresh g s)
    (follows : bmcStateDecision c p s = .slave → g.follows p)
    (switches : (∃ tick, a.switches p tick = false) → bmcStateDecision c p s = .slave →
      g.faults p) :
    Works c a g (informed c (bmcStateDecision c p s) s) (recommend c a freshBest s p) := by
  obtain ⟨_, _, _, _, _, _, same⟩ := informed_state (c := c) (bmcStateDecision c p s) s
  have ports : (informed c (bmcStateDecision c p s) s).ports = s.ports := by rw [same]
  rw [recommend_eq]
  apply portDispatch_works
  · exact (recommendation_known _).1
  · intro upsets
    rw [ports] at upsets
    exact fresh p (recommendation_upsets upsets)
  · exact fun slave => follows (recommendation_slave slave)
  · intro failed uncalibrated differ
    apply switches failed
    by_contra other
    have demoted := updateOf_demotes (c := c) (a := a) (p := p)
      (s := informed c (bmcStateDecision c p s) s) freshBest (by
        rw [ports]
        exact recommendation_demotes other)
    rw [uncalibrated] at demoted
    cases demoted

/-! ### The election -/

/-- A port whose foreign masters alone have changed. -/
def Reconsidered (old new : Port) : Prop :=
  ∃ foreignMasters best, new = { old with foreignMasters := foreignMasters, best := best }

/-- What a port changes when it looks for its best master: its records and their messages. -/
theorem portComputeBest_state (p : Nat) (s : ClockState) :
    ∃ msgs port, Reconsidered (s.ports p) port ∧ (portComputeBest c a p s).2 = { s with
      msgs := msgs, ports := Function.update s.ports p port } := by
  unfold portComputeBest
  split
  · exact ⟨s.msgs, _, ⟨(s.ports p).foreignMasters, none, rfl⟩, rfl⟩
  · obtain ⟨msgs, same⟩ := considerAll_state c a p none (s.ports p).foreignMasters s
    dsimp only
    rw [same]
    exact ⟨msgs, _, ⟨_, _, rfl⟩, rfl⟩

/-- The clock goes from port to port, with the best so far. -/
def electFrom (c : Clock) (a : Answers) (ports : List Nat) (best : Option Best) (s : ClockState) :
    Option Best × ClockState :=
  ports.foldl (fun (best, s) p =>
    let (found, s) := portComputeBest c a p s
    (keepBest c p best found, s)) (best, s)

/-- One port after the other. -/
theorem electFrom_cons (p : Nat) (rest : List Nat) (best : Option Best) (s : ClockState) :
    electFrom c a (p :: rest) best s = electFrom c a rest
      (keepBest c p best (portComputeBest c a p s).1) (portComputeBest c a p s).2 := rfl

/-- What all ports change on the way, by induction on their list. -/
theorem electFrom_state (list : List Nat) (best : Option Best) (s : ClockState) :
    ∃ msgs ports, (∀ q, Reconsidered (s.ports q) (ports q)) ∧
      (electFrom c a list best s).2 = { s with msgs := msgs, ports := ports } := by
  induction list generalizing best s with
  | nil => exact ⟨s.msgs, s.ports, fun q => ⟨_, _, rfl⟩, rfl⟩
  | cons p rest inductionHypothesis =>
    obtain ⟨msgs, port, ⟨first, record, here⟩, same⟩ := portComputeBest_state (c := c) (a := a) p s
    obtain ⟨later, ports, each, again⟩ := inductionHypothesis
      (keepBest c p best (portComputeBest c a p s).1) (portComputeBest c a p s).2
    rw [electFrom_cons, again, same]
    refine ⟨later, ports, ?_, rfl⟩
    intro q
    obtain ⟨second, other, there⟩ := each q
    rw [same] at there
    dsimp only at there
    by_cases equal : q = p
    · subst equal
      rw [Function.update_self, here] at there
      exact ⟨second, other, there⟩
    · rw [Function.update_of_ne equal] at there
      exact ⟨second, other, there⟩

/-- The state decision up to the recommendations: whether the best is a new one. -/
def decided (c : Clock) (a : Answers) (s : ClockState) : Bool × ClockState :=
  adoptBest c (electBest c a c.ports s).1 (noteUsed (electBest c a c.ports s).2)

/-- A state decision is the choice of the best master, and then what each port is told. -/
theorem handleStateDecisionEvent_eq (s : ClockState) : handleStateDecisionEvent c a s =
    c.ports.foldl (recommend c a (decided c a s).1) (decided c a s).2 := rfl

/-- The identity of the best clock. -/
def bestIdOf (c : Clock) : Option Best → ClockIdentity
  | none => c.clockIdentity
  | some best => best.dataset.identity

/-- The time stamps are forgotten if the best clock is another one. -/
def tsprocFor (c : Clock) (best : Option Best) (s : ClockState) : Tsproc :=
  if bestIdOf c best ≠ s.bestId then
    if c.initialDelay ≠ 0 then tsprocSetDelay (tsprocReset true s.tsproc)
    else tsprocReset true s.tsproc
  else s.tsproc

/-- The best master is taken over, and the times are cleared if it is another one. -/
theorem adoptBest_eq (best : Option Best) (s : ClockState) :
    adoptBest c best s = (decide (bestIdOf c best ≠ s.bestId), { s with
      tsproc := tsprocFor c best s, best := best, bestId := bestIdOf c best }) := by
  cases best with
  | none =>
    by_cases same : c.clockIdentity = s.bestId <;> simp [adoptBest, bestIdOf, tsprocFor, same]
  | some best =>
    by_cases same : best.dataset.identity = s.bestId <;>
      simp [adoptBest, bestIdOf, tsprocFor, same]

/-- All that the choice of the best master can change. No state of a port is among it. -/
theorem decided_state (s : ClockState) :
    ∃ msgs ports tsproc best bestId used reported, (∀ q, Reconsidered (s.ports q) (ports q)) ∧
      (decided c a s).2 = { s with
        msgs := msgs, ports := ports, tsproc := tsproc, best := best, bestId := bestId,
        used := used, reported := reported } := by
  obtain ⟨msgs, ports, each, same⟩ := electFrom_state (c := c) (a := a) c.ports none s
  have elected : (electBest c a c.ports s).2 = { s with msgs := msgs, ports := ports } := same
  unfold decided
  rw [adoptBest_eq, elected]
  exact ⟨_, _, _, _, _, _, _, each, rfl⟩

end Decision

/-! ## Working ports -/

section Working

variable {c : Clock} {a : Answers} {s : ClockState}

/-- Guards that allow everything. -/
def Guards.free (before : ClockState) (here : Nat) : Guards where
  before := before
  here := here
  faults _ := True
  follows _ := True
  takes _ := True
  slips _ := True
  delivers _ := True

/-- The ports of the clock are at work. -/
def Working (c : Clock) (s : ClockState) : Prop :=
  ∀ p, p = 0 ∨ p ∈ c.ports → (s.ports p).state ≠ .initializing ∧ (s.ports p).state ≠ .disabled

/-- A sequence of effects keeps the ports out of the states that do not work. -/
theorem Effects.working {g : Guards} {t : ClockState} (effects : Effects c a g s t)
    (working : Working c s) : Working c t := by
  apply effects.keeps working
  intro s t effect working p mine
  rcases (effect.port p).state with same | moves
  · rw [same]
    exact working p mine
  · exact moves.working

/-- The states are the same. -/
theorem Working.congr {t : ClockState} (working : Working c s)
    (same : ∀ p, (t.ports p).state = (s.ports p).state) : Working c t := by
  intro p mine
  rw [same]
  exact working p mine

/-- Guards that allow everything allow a descriptor. -/
theorem allowsStep_free (before : ClockState) (p : Nat) (fd : Descriptor) :
    AllowsStep c a (Guards.free before p) fd := by
  refine ⟨⟨⟨?switches, ?egress, ?monitor, ?slips⟩, fun _ _ _ _ => trivial, ?delivers⟩, ?faulted,
    fun _ _ => trivial⟩
  all_goals
    intros
    trivial

/-- A port is told what to do. -/
theorem recommend_working (freshBest : Bool) (p : Nat) (working : Working c s) :
    Working c (recommend c a freshBest s p) := by
  obtain ⟨_, _, _, _, _, _, same⟩ := informed_state (c := c) (bmcStateDecision c p s) s
  have work : Works c a (Guards.free s p) _ (recommend c a freshBest s p) :=
    recommend_works (fun _ _ => trivial) (fun _ => trivial) (fun _ _ => trivial)
  apply work.effects.working
  apply working.congr
  intro q
  rw [same]

/-- The choice of the best master leaves all states. -/
theorem decided_working (working : Working c s) : Working c (decided c a s).2 := by
  obtain ⟨_, ports, _, _, _, _, _, each, same⟩ := decided_state (c := c) (a := a) s
  apply working.congr
  intro q
  obtain ⟨_, _, here⟩ := each q
  rw [same]
  dsimp only
  rw [here]

/-- What every recommendation preserves holds after the state decision. -/
theorem recommendations_keep {Invariant : ClockState → Prop} (working : Working c s)
    (initially : Invariant (decided c a s).2)
    (keeps : ∀ p ∈ c.ports, ∀ t, Working c t → Invariant t →
      Invariant (recommend c a (decided c a s).1 t p)) :
    Working c (handleStateDecisionEvent c a s) ∧ Invariant (handleStateDecisionEvent c a s) := by
  have walk : ∀ (list : List Nat), (∀ p ∈ list, p ∈ c.ports) → ∀ t, Working c t → Invariant t →
      Working c (list.foldl (recommend c a (decided c a s).1) t) ∧
        Invariant (list.foldl (recommend c a (decided c a s).1) t) := by
    intro list
    induction list with
    | nil => exact fun _ _ working invariant => ⟨working, invariant⟩
    | cons p rest inductionHypothesis =>
      intro mine t working invariant
      exact inductionHypothesis (fun q member => mine q (List.mem_cons_of_mem _ member)) _
        (recommend_working _ p working) (keeps p (mine p List.mem_cons_self) t working invariant)
  rw [handleStateDecisionEvent_eq]
  exact walk c.ports (fun _ member => member) _ (decided_working working) initially

/-- Only the fault timer of one port is set. -/
theorem armFault_port (p q : Nat) (s : ClockState) :
    ∃ armed, (armFault c p s).ports q = { s.ports q with faultArmed := armed } := by
  unfold armFault
  by_cases here : q = p
  · subst here
    exact ⟨_, withPort_same _⟩
  · exact ⟨(s.ports q).faultArmed, withPort_other here _⟩

/-- Stopping a fault timer writes nothing but that. -/
theorem disarmFault_port (p q : Nat) (s : ClockState) :
    ∃ armed, (disarmFault p s).ports q = { s.ports q with faultArmed := armed } := by
  unfold disarmFault
  by_cases here : q = p
  · subst here
    exact ⟨_, withPort_same _⟩
  · exact ⟨(s.ports q).faultArmed, withPort_other here _⟩

/-- A descriptor is passed over, or handled and the fault timer set if the port is FAULTY. -/
theorem pollStep_descriptor (Invariant : ClockState → Prop) {s : PollState} {p : Nat}
    {fd : Descriptor} (still : Invariant s.clock)
    (handled : s.faulted = false → Invariant (handleDescriptor c a p fd s.clock))
    (arms : ∀ t, Invariant t → Invariant (armFault c p t)) :
    Invariant (pollStep c s (.descriptor p fd a)).clock := by
  unfold pollStep
  dsimp only
  split
  next => exact still
  next busy =>
    have done := handled (by simpa using busy)
    split
    · exact arms _ done
    · exact done

/-- A step preserves what every effect preserves, if the few changes that are no effects do. -/
theorem pollStep_preserves (Invariant : ClockState → Prop)
    (effect : ∀ a g s t, Effect c a g s t → Invariant s → Invariant t)
    (arm : ∀ p s, Invariant s → Invariant (armFault c p s))
    (disarm : ∀ p s, Invariant s → Invariant (disarmFault p s))
    (decide : ∀ a s, Invariant s → Invariant (decided c a s).2)
    (inform : ∀ recommended s, Invariant s → Invariant (informed c recommended s))
    (settle : ∀ s, Invariant s → Invariant { s with sde := false })
    {s : PollState} (step : PollStep) (before : Invariant s.clock) :
    Invariant (pollStep c s step).clock := by
  have works : ∀ {a g s t}, Works c a g s t → Invariant s → Invariant t :=
    fun work before => work.effects.keeps before fun _ _ => effect _ _ _ _
  cases step with
  | enter p => exact before
  | descriptor p fd a =>
    apply pollStep_descriptor Invariant before
    · intro _
      have work : Works c a (Guards.free s.clock p) s.clock (handleDescriptor c a p fd s.clock) :=
        handleDescriptor_works (allowsStep_free s.clock p fd) rfl
      exact works work before
    · exact arm p
  | faultTimer p a =>
    have work : Works c a (Guards.free (disarmFault p s.clock) p) (disarmFault p s.clock)
        (handleFaultTimer c a p s.clock) := handleFaultTimer_works rfl fun _ _ => trivial
    exact works work (disarm p _ before)
  | uds fd a =>
    have allows := allowsStep_free (c := c) (a := a) s.clock 0 fd
    have work : Works c a (Guards.free s.clock 0) s.clock (handleUds c a fd s.clock) :=
      handleUds_works allows.toAllowsDescriptor rfl rfl
    exact works work before
  | decide a =>
    change Invariant (handleDecision c a s.clock)
    unfold handleDecision
    split
    · apply settle
      rw [handleStateDecisionEvent_eq]
      have began := decide a _ before
      generalize (decided c a s.clock).2 = t at began ⊢
      induction c.ports generalizing t with
      | nil => exact began
      | cons p rest inductionHypothesis =>
        apply inductionHypothesis
        have work : Works c a (Guards.free t p) (informed c (bmcStateDecision c p t) t)
            (recommend c a (decided c a s.clock).1 t p) :=
          recommend_works (fun _ _ => trivial) (fun _ => trivial) (fun _ _ => trivial)
        exact works work (inform _ _ began)
    · exact before

/-- One step of the loop, by its kind. -/
theorem pollStep_working {s : PollState} (step : PollStep) (working : Working c s.clock) :
    Working c (pollStep c s step).clock := by
  apply pollStep_preserves (Working c) _ _ _ _ _ _ step working
  · exact fun a g s t effect working => effect.effects.working working
  · intro p s working
    apply working.congr
    intro q
    obtain ⟨_, same⟩ := armFault_port (c := c) p q s
    rw [same]
  · intro p s working
    apply working.congr
    intro q
    obtain ⟨_, same⟩ := disarmFault_port p q s
    rw [same]
  · exact fun a s working => decided_working working
  · intro recommended s working
    obtain ⟨_, _, _, _, _, _, same⟩ := informed_state (c := c) recommended s
    apply working.congr
    intro q
    rw [same]
  · exact fun s working => working.congr fun _ => rfl

/-! ### Starting -/

/-- What becomes of a port that is initialised. -/
theorem updateOf_initialize (p : Nat) :
    (updateOf c a p .initializeEvent false s).next =
      if a.starts p s.asked then .listening else .faulty := by
  have machine : c.machine (s.ports p).state .initializeEvent false = .initializing := by
    unfold Clock.machine
    split <;> simp [ptpFsm, ptpSlaveFsm]
  unfold updateOf portStateUpdate
  rw [machine]
  simp only [reduceCtorEq, false_and, if_false, if_true, machine_initializing]

/-- A port that is initialised is faulty or listens, whatever its clock. -/
theorem portDispatch_initialises (p : Nat) :
    ((portDispatch c a p .initializeEvent false s).ports p).state = .faulty ∨
      ((portDispatch c a p .initializeEvent false s).ports p).state = .listening := by
  rcases portDispatch_state c a p .initializeEvent false s with same | ⟨_, fault⟩
  · rw [same, updateOf_initialize]
    split
    · exact Or.inr rfl
    · exact Or.inl rfl
  · exact fault

/-- Every port has been initialised, with or without success. -/
theorem clockStart_state (s : ClockState) (p : Nat) (mine : p = 0 ∨ p ∈ c.ports) :
    ((clockStart c a s).ports p).state = .faulty ∨
      ((clockStart c a s).ports p).state = .listening := by
  have walk : ∀ (list : List Nat) (t : ClockState),
      p ∈ list ∨ (t.ports p).state = .faulty ∨ (t.ports p).state = .listening →
      ((list.foldl (fun s p => portDispatch c a p .initializeEvent false s) t).ports p).state =
          .faulty ∨
        ((list.foldl (fun s p => portDispatch c a p .initializeEvent false s) t).ports p).state =
          .listening := by
    intro list
    induction list with
    | nil =>
      rintro t (impossible | ready)
      · cases impossible
      · exact ready
    | cons q rest inductionHypothesis =>
      intro t ready
      apply inductionHypothesis
      by_cases here : p = q
      · subst here
        exact Or.inr (portDispatch_initialises p)
      · obtain ⟨_, _, _, _, _, frame⟩ :=
          (portDispatch_touches c a q .initializeEvent false t).frame
        rcases ready with member | ready
        · rcases List.mem_cons.mp member with same | member
          · exact absurd same here
          · exact Or.inl member
        · dsimp only
          rw [frame]
          dsimp only
          rw [Function.update_of_ne here]
          exact Or.inr ready
  apply walk
  rcases mine with rfl | member
  · simp
  · simp [member]

/-- The initialisation of the ports leaves what the clock keeps for itself. -/
theorem clockStart_frame (s : ClockState) :
    ∃ msgs asked servoState realtime ports, clockStart c a s = { s with
      msgs := msgs, asked := asked, servoState := servoState, realtime := realtime,
      ports := ports } := by
  have walk : ∀ (list : List Nat) (t : ClockState), ∃ msgs asked servoState realtime ports,
      list.foldl (fun s p => portDispatch c a p .initializeEvent false s) t = { t with
        msgs := msgs, asked := asked, servoState := servoState, realtime := realtime,
        ports := ports } := by
    intro list
    induction list with
    | nil => exact fun t => ⟨t.msgs, t.asked, t.servoState, t.realtime, t.ports, rfl⟩
    | cons p rest inductionHypothesis =>
      intro t
      obtain ⟨_, _, _, _, _, frame⟩ := (portDispatch_touches c a p .initializeEvent false t).frame
      obtain ⟨msgs, asked, servoState, realtime, ports, same⟩ :=
        inductionHypothesis (portDispatch c a p .initializeEvent false t)
      refine ⟨msgs, asked, servoState, realtime, ports, ?_⟩
      rw [List.foldl_cons, same, frame]
  exact walk _ s

/-- All ports are initialised, so none is left in the state they are created in. -/
theorem clockStart_working (s : ClockState) : Working c (clockStart c a s) := by
  intro p mine
  rcases clockStart_state (a := a) s p mine with same | same <;> rw [same] <;> simp

end Working

/-! ## Runs -/

section Polling

variable (c : Clock)

/-- How a clock is started. -/
structure StartUp where
  dds : DefaultDataSet
  utcOffset : Int := 37
  timeSource : UInt8 := 160
  realtime : Bool := false
  /-- The answers while the ports are initialised. -/
  answers : Answers := {}

/-- The state in which the first poll begins. -/
def StartUp.state (start : StartUp) : PollState where
  clock := clockStart c start.answers
    (clockOpen c start.dds start.utcOffset start.timeSource start.realtime)

/-- The local socket is no port of the network. -/
theorem zero_not_mem_ports : 0 ∉ c.ports := by
  unfold Clock.ports
  simp

/-- A step of a network port of the clock, or of no port. -/
def PollStep.fits : PollStep → Prop
  | .enter p | .descriptor p _ _ | .faultTimer p _ => p ∈ c.ports
  | .uds _ _ | .decide _ => True

variable {c}

/-- The steps of one turn of the loop are of ports of the clock. -/
theorem fits_of_mem {poll : Poll} {step : PollStep} (member : step ∈ poll.steps c) :
    step.fits c := by
  unfold Poll.steps at member
  simp only [List.mem_append, List.mem_flatMap, List.mem_map, List.mem_singleton] at member
  rcases member with (⟨p, mine, here⟩ | ⟨ready, _, rfl⟩) | rfl
  · unfold Poll.portSteps at here
    simp only [List.cons_append, List.mem_cons, List.mem_append, List.mem_map] at here
    rcases here with rfl | ⟨ready, _, rfl⟩ | ⟨answers, _, rfl⟩
    · exact mine
    · exact mine
    · exact mine
  · trivial
  · trivial

/-- What the permitted steps of a run preserve holds at every moment of it. -/
theorem run_keeps (Invariant : PollState → Prop) {start : StartUp}
    {condition : PollState → PollStep → Prop} {polls : List Poll} {events : List PollStep}
    (moment : events <+: polls.flatMap (Poll.steps c))
    (along : Along (pollStep c) condition (start.state c) events)
    (initially : Invariant (start.state c))
    (keeps : ∀ s step, Working c s.clock → step.fits c → Invariant s → condition s step →
      Invariant (pollStep c s step)) :
    Invariant (events.foldl (pollStep c) (start.state c)) := by
  have fits : ∀ step ∈ events, step.fits c := by
    intro step member
    obtain ⟨poll, _, here⟩ := List.mem_flatMap.mp (moment.subset member)
    exact fits_of_mem here
  have walk : ∀ (events : List PollStep) (s : PollState), (∀ step ∈ events, step.fits c) →
      Working c s.clock → Along (pollStep c) condition s events → Invariant s →
      Invariant (events.foldl (pollStep c) s) := by
    intro events
    induction events with
    | nil => exact fun _ _ _ _ invariant => invariant
    | cons step rest inductionHypothesis =>
      intro s fits working along invariant
      obtain ⟨here, later⟩ := along
      have fit := fits step List.mem_cons_self
      exact inductionHypothesis _ (fun other member => fits other (List.mem_cons_of_mem _ member))
        (pollStep_working step working) later (keeps s step working fit invariant here)
  exact walk events _ fits (clockStart_working _) along initially

variable (c)

/-- The state in which a run is after its first steps. -/
def stateAfter (start : StartUp) (polls : List Poll) (count : Nat) : PollState :=
  ((polls.flatMap (Poll.steps c)).take count).foldl (pollStep c) (start.state c)

variable {c}

/-- What every step preserves holds at every moment of every run. -/
theorem stateAfter_keeps (Invariant : PollState → Prop) {start : StartUp} (polls : List Poll)
    (count : Nat) (initially : Invariant (start.state c))
    (keeps : ∀ s step, Working c s.clock → step.fits c → Invariant s →
      Invariant (pollStep c s step)) :
    Invariant (stateAfter c start polls count) := by
  have unconditional : Along (pollStep c) (fun _ _ => True) (start.state c)
      ((polls.flatMap (Poll.steps c)).take count) := along_of_forall fun _ _ _ => trivial
  apply run_keeps Invariant (List.take_prefix ..) unconditional initially
  exact fun s step working fits invariant _ => keeps s step working fits invariant

end Polling

end LinuxPtp
