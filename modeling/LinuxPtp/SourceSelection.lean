import LinuxPtp.CText
import LinuxPtp.ManagementState
import LinuxPtp.Places
import LinuxPtp.Runs
import Mathlib.Data.List.Forall2

/-!
# Selecting a source

How `phc2sys.c` follows the states of the ports and picks the clock that the others are synchronised
to. A clock is known by its place in the list, and 0 as a state is no state. What `ptp4l` answers,
what an interface says of its time stamping, and whether a device can be opened are supplied. Servos,
statistics and the labels for messages are left out.

The choice is safe except in one case: a default clock is picked before it is looked at whether some
clock is about to become a source.
-/

namespace LinuxPtp.Phc2sys

open Places

/-! ## The node -/

/-- `CLOCK_REALTIME`. -/
def clockRealtime : Int := 0

/-- `struct clock`. -/
structure Clock where
  clkid : Int
  phcIndex : Int := -1
  destOnly : Bool := false
  state : Option PortState := none
  newState : Option PortState := none
  servoState : ServoState := .unlocked
  device : CText
deriving DecidableEq

/-- The states to which `normalize_state` leaves a port. -/
def Computed (state : PortState) : Prop :=
  state = .disabled ∨ state = .preMaster ∨ state = .master ∨ state = .uncalibrated ∨ state = .slave

instance (state : PortState) : Decidable (Computed state) := inferInstanceAs (Decidable (_ ∨ _))

/-- `struct port`. -/
structure Port where
  number : Nat
  state : PortState
  clock : Nat
  normal : Computed state

/-- `struct node`. -/
structure Node where
  clocks : List Clock
  ports : List Port := []
  master : Option Nat := none
  stateChanged : Bool := false

namespace Clock

variable (c : Clock)

def realtime : Bool := c.clkid = clockRealtime

/-- The state of the clock when a pending change is applied. -/
def pending : Option PortState := c.newState.or c.state

end Clock

/-- `normalize_state`, of a number that was received. -/
def normalizeState (state : Int) : PortState :=
  if state = PortState.master.code.toNat then .master
  else if state = PortState.slave.code.toNat then .slave
  else if state = PortState.preMaster.code.toNat then .preMaster
  else if state = PortState.uncalibrated.code.toNat then .uncalibrated
  else .disabled

/-- A state from the network becomes one of those that are computed. -/
theorem normalizeState_computed (state : Int) : Computed (normalizeState state) := by
  unfold normalizeState
  split_ifs <;> decide

/-- The body of the loop in `clock_compute_state`. -/
def higherState (clock : Nat) (state : PortState) (p : Port) : PortState :=
  if p.clock ≠ clock then state
  else if p.state.code > state.code then p.state else state

/-- `clock_compute_state`. -/
def clockComputeState (ports : List Port) (clock : Nat) : PortState :=
  ports.foldl (higherState clock) .disabled

/-- The state of a clock is one of those as well. -/
theorem clockComputeState_computed (ports : List Port) (clock : Nat) :
    Computed (clockComputeState ports clock) := by
  have walk : ∀ state, Computed state → Computed (ports.foldl (higherState clock) state) := by
    induction ports with
    | nil => exact fun _ computed => computed
    | cons p ports inductionHypothesis =>
      intro state computed
      apply inductionHypothesis
      unfold higherState
      split_ifs
      · exact computed
      · exact p.normal
      · exact computed
  exact walk .disabled (by decide)

/-! ## Reconfiguring -/

/-- What `run_pmc_port_properties` yields. -/
structure PortProperties where
  state : Int
  timestamping : TimestampType
  iface : CText

/-- The answers while one clock is initialised again. -/
structure Survey where
  /-- By the number of the port. -/
  properties : Nat → Option PortProperties := fun _ => none
  /-- The PHC that `sk_get_ts_info` finds for a device. -/
  phcIndex : CText → Option Int := fun _ => none
  /-- What `clock_open` yields for a device: the clock, and the index it was found by. -/
  opens : CText → Option (Int × Int) := fun _ => none

/-- The first loop of `clock_reinit`, with what the last port of the clock said. -/
def surveyPorts (e : Survey) (clock : Nat) : List Port → Option PortProperties →
    List Port × Option PortProperties
  | [], last => ([], last)
  | p :: ports, last =>
    if p.clock ≠ clock then
      let (ports, last) := surveyPorts e clock ports last
      (p :: ports, last)
    else
      let said := e.properties p.number
      let state := said.elim p.state fun said => normalizeState said.state
      let normal : Computed state := by
        dsimp only [state]
        cases said with
        | none => exact p.normal
        | some said => exact normalizeState_computed said.state
      let (ports, last) := surveyPorts e clock ports said
      ({ p with state := state, normal := normal } :: ports, last)

/-- The end of `clock_reinit`. -/
def resetServo (newState : PortState) (phcSwitched : Bool) (c : Clock) : Clock :=
  if newState = .master ∨ phcSwitched then { c with servoState := .unlocked } else c

/-- `clock_reinit`. -/
def clockReinit (e : Survey) (clock : Nat) (newState : PortState) (c : Clock) (ports : List Port) :
    Clock × List Port :=
  let (ports, said) := surveyPorts e clock ports none
  match said with
  | none => (resetServo newState false c, ports)
  | some said =>
    if said.timestamping = .software then (resetServo newState false c, ports) else
      let c := { c with device := said.iface }
      match e.phcIndex c.device with
      | none => (resetServo newState false c, ports)
      | some phcIndex =>
        if c.phcIndex = phcIndex then (resetServo newState false c, ports) else
          match e.opens c.device with
          | none => (c, ports)
          | some (clkid, phcIndex) =>
            (resetServo newState true { c with clkid := clkid, phcIndex := phcIndex }, ports)

/-- The candidates and the counters of `reconfigure`. -/
structure Candidates where
  rt : Option Nat := none
  src : Option Nat := none
  last : Option Nat := none
  srcCnt : Nat := 0
  dstCnt : Nat := 0

/-- The states of a clock that is to be synchronised. -/
def isDestination : Option PortState → Bool
  | some .faulty | some .disabled | some .listening | some .preMaster | some .master
  | some .passive => true
  | _ => false

/-- The switch of `reconfigure`, over the state of a clock. -/
def Candidates.consider (clock : Nat) (state : Option PortState) (found : Candidates) :
    Candidates :=
  let found := if isDestination state then { found with dstCnt := found.dstCnt + 1 } else
    match state with
    | some .uncalibrated => { found with srcCnt := found.srcCnt + 1 }
    | some .slave => { found with src := some clock, srcCnt := found.srcCnt + 1 }
    | _ => found
  { found with last := some clock }

section Consider

variable {found : Candidates} {clock : Nat} {state : Option PortState}

/-- Looking at a clock of the network leaves the real time clock that was found. -/
@[simp] theorem consider_rt : (found.consider clock state).rt = found.rt := by
  unfold Candidates.consider
  rcases state with _ | (_ | _ | _ | _ | _ | _ | _ | _ | _ | _) <;> rfl

/-- The last clock that is a slave is the source. -/
@[simp] theorem consider_src : (found.consider clock state).src =
    if state = some .slave then some clock else found.src := by
  unfold Candidates.consider
  rcases state with _ | (_ | _ | _ | _ | _ | _ | _ | _ | _ | _) <;> rfl

/-- The last clock that was looked at is kept. -/
@[simp] theorem consider_last : (found.consider clock state).last = some clock := rfl

/-- Clocks that follow a master or are about to are counted. -/
@[simp] theorem consider_srcCnt : (found.consider clock state).srcCnt = found.srcCnt +
    (if state = some .uncalibrated then 1 else 0) + if state = some .slave then 1 else 0 := by
  unfold Candidates.consider
  rcases state with _ | (_ | _ | _ | _ | _ | _ | _ | _ | _ | _) <;> rfl

/-- Clocks that can be synchronised are counted. -/
@[simp] theorem consider_dstCnt : (found.consider clock state).dstCnt =
    found.dstCnt + if isDestination state then 1 else 0 := by
  unfold Candidates.consider
  rcases state with _ | (_ | _ | _ | _ | _ | _ | _ | _ | _ | _) <;> rfl

end Consider

/-- A pending change is applied. -/
def applyPending (e : Survey) (clock : Nat) (c : Clock) (ports : List Port) : Clock × List Port :=
  match c.newState with
  | none => (c, ports)
  | some newState =>
    let (c, ports) := clockReinit e clock newState c ports
    ({ c with state := some newState, newState := none }, ports)

/-- The loop of `reconfigure`, from a place in the list on. -/
def survey (e : Nat → Survey) : Nat → List Clock → List Port → Candidates →
    List Clock × List Port × Candidates
  | _, [], ports, found => ([], ports, found)
  | clock, c :: clocks, ports, found =>
    if c.realtime then
      let (clocks, ports, found) := survey e (clock + 1) clocks ports { found with rt := some clock }
      (c :: clocks, ports, found)
    else
      let (c, ports) := applyPending (e clock) clock c ports
      let (clocks, ports, found) :=
        survey e (clock + 1) clocks ports (found.consider clock c.state)
      (c :: clocks, ports, found)

/-- The state of a clock is set. -/
def setState (state : PortState) (clock : Nat) (clocks : List Clock) : List Clock :=
  clocks.modify clock fun c => { c with state := some state }

/-- The default clock: its state is kept for the next time. -/
def makeDefault (clock : Nat) (clocks : List Clock) : List Clock :=
  clocks.modify clock fun c => { c with newState := c.state, state := some .slave }

/-- The realtime clock becomes a destination. -/
def makeDestination (e : Survey) (clock : Nat) (clocks : List Clock) (ports : List Port) :
    List Clock × List Port :=
  match clocks[clock]? with
  | none => (clocks, ports)
  | some rt =>
    if rt.state = some .master then (clocks, ports) else
      let (rt, ports) := clockReinit e clock .master { rt with state := some .master } ports
      (clocks.set clock rt, ports)

/-- The part of `reconfigure` after the loop. -/
def select (e : Nat → Survey) (found : Candidates) (clocks : List Clock) (ports : List Port) :
    Node :=
  let rt := found.rt.bind (clocks[·]?)
  let unavailable : Bool := rt.all Clock.destOnly
  if found.dstCnt > 1 ∧ found.src = none ∧ unavailable then
    let clocks := (found.last.map (makeDefault · clocks)).getD clocks
    let clocks := (found.rt.map (setState .slave · clocks)).getD clocks
    { clocks := clocks, ports := ports, master := found.last }
  else if found.srcCnt > 1 then { clocks := clocks, ports := ports }
  else if found.srcCnt > 0 ∧ found.src = none then { clocks := clocks, ports := ports }
  else if found.srcCnt = 0 ∧ found.dstCnt = 0 then { clocks := clocks, ports := ports }
  else if found.srcCnt = 0 ∧ unavailable ∨ found.dstCnt = 0 ∧ found.rt = none then
    { clocks := clocks, ports := ports }
  else if found.srcCnt = 0 then
    let clocks := (found.rt.map (setState .slave · clocks)).getD clocks
    { clocks := clocks, ports := ports, master := found.rt }
  else
    let (clocks, ports) :=
      (found.rt.map fun rt => makeDestination (e rt) rt clocks ports).getD (clocks, ports)
    { clocks := clocks, ports := ports, master := found.src }

/-- `reconfigure`. -/
def reconfigure (e : Nat → Survey) (node : Node) : Node :=
  let (clocks, ports, found) := survey e 0 node.clocks node.ports {}
  select e found clocks ports

/-- `update_needed`. -/
def updateNeeded (c : Clock) : Bool := isDestination c.state

/-! ## What the loop finds -/

section Found

/-- A clock other than the realtime one, by its state with the pending change applied. -/
def Clock.inState (state : PortState) (c : Clock) : Bool := !c.realtime && c.pending = some state

/-- Such a clock that is to be synchronised. -/
def Clock.destination (c : Clock) : Bool := !c.realtime && isDestination c.pending

/-- The state that was put off is taken. -/
theorem applyPending_state (e : Survey) (clock : Nat) (c : Clock) (ports : List Port) :
    (applyPending e clock c ports).1.state = c.pending := by
  unfold applyPending Clock.pending
  split <;> rename_i change <;> rw [change] <;> rfl

/-- The clocks after the loop. -/
structure Visited (before after : List Clock) : Prop where
  realtime : ∀ (place : Nat) (c : Clock), before[place]? = some c → c.realtime →
    after[place]? = some c
  other : ∀ (place : Nat) (c : Clock), before[place]? = some c → ¬ c.realtime →
    ∃ c' : Clock, after[place]? = some c' ∧ c'.state = c.pending

/-- The candidates after the loop over some clocks, the first of which has a place. -/
structure Counted (place : Nat) (clocks : List Clock) (before after : Candidates) : Prop where
  rt : after.rt = ((lastIdx Clock.realtime clocks).map (place + ·)).or before.rt
  src : after.src = ((lastIdx (Clock.inState .slave) clocks).map (place + ·)).or before.src
  last : after.last = ((lastIdx (fun c => !c.realtime) clocks).map (place + ·)).or before.last
  srcCnt : after.srcCnt = before.srcCnt + clocks.countP (Clock.inState .uncalibrated) +
    clocks.countP (Clock.inState .slave)
  dstCnt : after.dstCnt = before.dstCnt + clocks.countP Clock.destination

/-- A place among the later clocks. -/
theorem place_cons {p : Clock → Bool} {c : Clock} {clocks : List Clock} {place : Nat}
    {before here : Option Nat} (first : here = if p c then some place else before) :
    ((lastIdx p clocks).map (place + 1 + ·)).or here =
      ((lastIdx p (c :: clocks)).map (place + ·)).or before := by
  rw [lastIdx, first]
  cases lastIdx p clocks with
  | some other => simp [Nat.add_assoc, Nat.add_comm 1]
  | none => by_cases here : p c <;> simp [here]

/-- All clocks are looked at once each, by induction on their list, and are counted by the state
that they have afterwards. -/
theorem survey_spec (e : Nat → Survey) (place : Nat) (clocks : List Clock) (ports : List Port)
    (found : Candidates) :
    Visited clocks (survey e place clocks ports found).1 ∧
      Counted place clocks found (survey e place clocks ports found).2.2 := by
  induction clocks generalizing place ports found with
  | nil =>
    refine ⟨⟨?_, ?_⟩, rfl, rfl, rfl, rfl, rfl⟩
    · intro place c member
      cases member
    · intro place c member
      cases member
  | cons c clocks inductionHypothesis =>
    unfold survey
    by_cases realtime : c.realtime
    · obtain ⟨visited, counted⟩ :=
        inductionHypothesis (place + 1) ports { found with rt := some place }
      rw [if_pos realtime]
      dsimp only
      refine ⟨⟨?_, ?_⟩, ?_⟩
      · rintro (_ | other) d member isRealtime
        · exact member
        · exact visited.realtime other d member isRealtime
      · rintro (_ | other) d member isOther
        · obtain rfl := Option.some.inj member
          exact absurd realtime isOther
        · exact visited.other other d member isOther
      · obtain ⟨rt, src, last, srcCnt, dstCnt⟩ := counted
        refine ⟨?_, ?_, ?_, ?_, ?_⟩
        · rw [rt]
          exact place_cons (by rw [if_pos realtime])
        · rw [src]
          exact place_cons (by simp [Clock.inState, realtime])
        · rw [last]
          exact place_cons (by simp [realtime])
        · simp [srcCnt, Clock.inState, realtime]
        · simp [dstCnt, Clock.destination, realtime]
    · have state := applyPending_state (e place) place c ports
      rw [if_neg realtime]
      generalize applyPending (e place) place c ports = applied at state ⊢
      obtain ⟨c', ports'⟩ := applied
      dsimp only at state ⊢
      obtain ⟨visited, rt, src, last, srcCnt, dstCnt⟩ :=
        inductionHypothesis (place + 1) ports' (found.consider place c'.state)
      refine ⟨⟨?_, ?_⟩, ?_, ?_, ?_, ?_, ?_⟩
      · rintro (_ | other) d member isRealtime
        · obtain rfl := Option.some.inj member
          exact absurd isRealtime realtime
        · exact visited.realtime other d member isRealtime
      · rintro (_ | other) d member isOther
        · obtain rfl := Option.some.inj member
          exact ⟨c', rfl, state⟩
        · exact visited.other other d member isOther
      all_goals rw [state] at *
      · rw [rt]
        exact place_cons (by simp [realtime])
      · rw [src]
        exact place_cons (by simp [Clock.inState, realtime])
      · rw [last]
        exact place_cons (by simp [realtime])
      · rw [srcCnt, consider_srcCnt]
        simp only [List.countP_cons, Clock.inState, realtime, Bool.not_false, Bool.true_and,
          decide_eq_true_eq]
        omega
      · rw [dstCnt, consider_dstCnt]
        simp only [List.countP_cons, Clock.destination, realtime, Bool.not_false, Bool.true_and]
        omega

/-- The clocks are the realtime one, sources and destinations. -/
theorem clocks_counted {clocks : List Clock} (computed : ∀ c ∈ clocks, ¬ c.realtime →
    ∃ state, c.pending = some state ∧ Computed state) :
    clocks.length = clocks.countP (Clock.inState .uncalibrated) +
      clocks.countP (Clock.inState .slave) + clocks.countP Clock.destination +
      clocks.countP Clock.realtime := by
  induction clocks with
  | nil => rfl
  | cons c clocks inductionHypothesis =>
    obtain ⟨here, others⟩ := List.forall_mem_cons.mp computed
    have rest := inductionHypothesis others
    simp only [List.length_cons, List.countP_cons, Clock.inState, Clock.destination]
    by_cases realtime : c.realtime
    · simp only [realtime, Bool.not_true, Bool.false_and, Bool.false_eq_true, if_false, if_true]
      omega
    · obtain ⟨state, pending, computed⟩ := here realtime
      simp only [realtime, pending, Bool.not_false, Bool.true_and, decide_eq_true_eq,
        Option.some.injEq, Bool.false_eq_true, if_false]
      rcases computed with rfl | rfl | rfl | rfl | rfl <;>
        simp only [isDestination, if_true, if_false, reduceCtorEq, Bool.false_eq_true] <;> omega

end Found

/-! ## The choice is safe -/

/-- What is promised of the clocks: at most one is the realtime clock, and the others are in states
that `clock_compute_state` yields. -/
structure Node.Settled (node : Node) : Prop where
  single : node.clocks.countP Clock.realtime ≤ 1
  computed : ∀ c ∈ node.clocks, ¬ c.realtime → ∃ state, c.pending = some state ∧ Computed state

/-- A source is picked only when it is safe. -/
structure Safe (before after : Node) : Prop where
  waits : (∃ c ∈ before.clocks, c.inState .uncalibrated) ∨
    1 < before.clocks.countP (Clock.inState .slave) → after.master = none
  chosen : before.clocks.countP (Clock.inState .slave) = 1 →
    (∀ c ∈ before.clocks, ¬ c.inState .uncalibrated) → 1 < before.clocks.length →
    ∀ (place : Nat) (c : Clock), before.clocks[place]? = some c → c.inState .slave →
      after.master = some place
  source : ∀ place, after.master = some place →
    ∃ c, after.clocks[place]? = some c ∧ updateNeeded c = false

/-- A default clock is picked although some clock is about to become a source: none is one yet,
several are to be synchronised, and the realtime clock may not be the source. -/
structure Hasty (node : Node) : Prop where
  coming : ∃ c ∈ node.clocks, c.inState .uncalibrated
  absent : ∀ c ∈ node.clocks, ¬ c.inState .slave
  several : 1 < node.clocks.countP Clock.destination
  unavailable : ∀ c ∈ node.clocks, c.realtime → c.destOnly

section Safety

variable {e : Nat → Survey} {node : Node} {found : Candidates} {clocks : List Clock}
  {ports : List Port}

/-- What the candidates of the whole list are. -/
theorem counted_all (counted : Counted 0 node.clocks {} found) :
    found.rt = lastIdx Clock.realtime node.clocks ∧
      found.src = lastIdx (Clock.inState .slave) node.clocks ∧
      found.last = lastIdx (fun c => !c.realtime) node.clocks := by
  obtain ⟨rt, src, last, _, _⟩ := counted
  simp only [Nat.zero_add, Option.map_id', Option.or_none] at rt src last
  exact ⟨rt, src, last⟩

/-- The realtime clock may not be the source. -/
theorem unavailable_iff (settled : node.Settled) (visited : Visited node.clocks clocks)
    (rt : found.rt = lastIdx Clock.realtime node.clocks) :
    (found.rt.bind (clocks[·]?)).all Clock.destOnly ↔
      ∀ c ∈ node.clocks, c.realtime → c.destOnly := by
  rw [rt]
  cases there : lastIdx Clock.realtime node.clocks with
  | none => exact iff_of_true rfl fun c member realtime =>
      absurd realtime (lastIdx_none.mp there c member)
  | some place =>
    obtain ⟨c, member, realtime⟩ := lastIdx_some there
    rw [Option.bind_some, visited.realtime place c member realtime, Option.all_some]
    constructor
    · intro only d other also
      obtain ⟨j, second⟩ := List.mem_iff_getElem?.mp other
      obtain rfl := place_unique settled.single member realtime second also
      obtain rfl := Option.some.inj (member.symm.trans second)
      exact only
    · exact fun all => all c (List.mem_of_getElem? member) realtime

/-- A clock whose state has been set to SLAVE is not to be updated. -/
theorem slave_not_updated {c : Clock} (slave : c.state = some .slave) : updateNeeded c = false := by
  unfold updateNeeded
  rw [slave]
  rfl

/-- A clock that is a source stays one when another is made one. -/
theorem slave_kept {place other : Nat} {c : Clock} (there : clocks[place]? = some c)
    (slave : c.state = some .slave) :
    ∃ c', (setState .slave other clocks)[place]? = some c' ∧ c'.state = some .slave := by
  unfold setState
  by_cases same : other = place
  · rw [same, List.getElem?_modify_eq, there]
    exact ⟨_, rfl, rfl⟩
  · rw [List.getElem?_modify_ne _ _ same]
    exact ⟨c, there, slave⟩

/-- The default clock is the last one, and it becomes a source. -/
theorem select_default (visited : Visited node.clocks clocks)
    (counted : Counted 0 node.clocks {} found)
    (taken : found.dstCnt > 1 ∧ found.src = none ∧
      (found.rt.bind (clocks[·]?)).all Clock.destOnly) :
    ∃ place, (select e found clocks ports).master = some place ∧
      ∃ c, (select e found clocks ports).clocks[place]? = some c ∧ updateNeeded c = false := by
  obtain ⟨_, _, last⟩ := counted_all counted
  have several : 1 < node.clocks.countP Clock.destination := by
    have dstCnt := counted.dstCnt
    have more := taken.1
    dsimp only at dstCnt
    omega
  unfold select
  dsimp only
  rw [if_pos taken]
  dsimp only
  cases there : lastIdx (fun c : Clock => !c.realtime) node.clocks with
  | none =>
    obtain ⟨c, member, destination⟩ := List.countP_pos_iff.mp (Nat.lt_of_succ_lt several)
    have other := lastIdx_none.mp there c member
    rw [Clock.destination, Bool.and_eq_true] at destination
    exact absurd destination.1 other
  | some place =>
    rw [there] at last
    obtain ⟨c, member, other⟩ := lastIdx_some there
    obtain ⟨c', after, _⟩ := visited.other place c member (by simpa using other)
    refine ⟨place, last, ?_⟩
    rw [last]
    have made : (makeDefault place clocks)[place]? =
        some { c' with newState := c'.state, state := some .slave } := by
      unfold makeDefault
      rw [List.getElem?_modify_eq, after]
      rfl
    cases found.rt with
    | none => exact ⟨_, made, slave_not_updated rfl⟩
    | some rt =>
      obtain ⟨d, kept, slave⟩ := @slave_kept (makeDefault place clocks) place rt _ made rfl
      exact ⟨d, kept, slave_not_updated slave⟩

/-- Making the realtime clock a destination changes no other clock. -/
theorem makeDestination_other {rt place : Nat} (differ : rt ≠ place) :
    (makeDestination (e rt) rt clocks ports).1[place]? = clocks[place]? := by
  unfold makeDestination
  split
  · rfl
  split
  · rfl
  · exact List.getElem?_set_ne differ

/-- The realtime clock is not updated once it is the source. -/
theorem realtime_source {before : List Clock} {place : Nat} (visited : Visited before clocks)
    (picked : lastIdx Clock.realtime before = some place) :
    ∃ c, (setState .slave place clocks)[place]? = some c ∧ updateNeeded c = false := by
  obtain ⟨c, member, realtime⟩ := lastIdx_some picked
  have same := visited.realtime place c member realtime
  refine ⟨{ c with state := some .slave }, ?_, slave_not_updated rfl⟩
  rw [setState, List.getElem?_modify_eq, same]
  rfl

/-- Nor is a clock that becomes SLAVE, when the realtime clock is made a destination. -/
theorem source_spared {before : List Clock} {place : Nat} {c : Clock} {rt : Option Nat}
    (visited : Visited before clocks) (real : rt = lastIdx Clock.realtime before)
    (member : before[place]? = some c) (slave : c.inState .slave) :
    ∃ c', ((rt.map fun rt => makeDestination (e rt) rt clocks ports).getD
      (clocks, ports)).1[place]? = some c' ∧ updateNeeded c' = false := by
  rw [Clock.inState, Bool.and_eq_true, Bool.not_eq_true', decide_eq_true_eq] at slave
  obtain ⟨isOther, pending⟩ := slave
  obtain ⟨c', after, state⟩ := visited.other place c member (by simp [isOther])
  refine ⟨c', ?_, slave_not_updated (state.trans pending)⟩
  cases rt with
  | none => exact after
  | some clock =>
    obtain ⟨d, also, realtime⟩ := lastIdx_some real.symm
    have differ : clock ≠ place := by
      rintro rfl
      obtain rfl := Option.some.inj (member.symm.trans also)
      rw [isOther] at realtime
      cases realtime
    exact (makeDestination_other differ).trans after

/-- Without a default clock the choice is safe. -/
theorem select_safe (settled : node.Settled) (visited : Visited node.clocks clocks)
    (counted : Counted 0 node.clocks {} found)
    (skipped : ¬ (found.dstCnt > 1 ∧ found.src = none ∧
      (found.rt.bind (clocks[·]?)).all Clock.destOnly)) :
    Safe node (select e found clocks ports) := by
  obtain ⟨rt, src, _⟩ := counted_all counted
  have srcCnt := counted.srcCnt
  have dstCnt := counted.dstCnt
  have total := clocks_counted settled.computed
  simp only [Nat.zero_add] at srcCnt dstCnt
  have noneComing : node.clocks.countP (Clock.inState .uncalibrated) = 0 →
      ∀ c ∈ node.clocks, ¬ c.inState .uncalibrated := fun zero c member coming =>
    absurd zero (Nat.pos_iff_ne_zero.mp (List.countP_pos_iff.mpr ⟨c, member, coming⟩))
  have noneOf : (∀ c ∈ node.clocks, ¬ c.inState .uncalibrated) →
      node.clocks.countP (Clock.inState .uncalibrated) = 0 := fun none =>
    List.countP_eq_zero.mpr none
  unfold select
  dsimp only
  rw [if_neg skipped]
  split_ifs with many unready idle nothing sourceless
  · refine ⟨fun _ => rfl, fun one calibrated _ => ?_, fun _ picked => ?_⟩
    · have zero := noneOf calibrated
      omega
    · cases picked
  · refine ⟨fun _ => rfl, fun one _ _ place c member slave => ?_, fun _ picked => ?_⟩
    · rw [src] at unready
      exact absurd slave (lastIdx_none.mp unready.2 c (List.mem_of_getElem? member))
    · cases picked
  · refine ⟨fun _ => rfl, fun one _ _ => ?_, fun _ picked => ?_⟩
    · omega
    · cases picked
  · refine ⟨fun _ => rfl, fun one calibrated more => ?_, fun _ picked => ?_⟩
    · have zero := noneOf calibrated
      rcases nothing with ⟨none, _⟩ | ⟨none, absent⟩
      · omega
      · have unreal : node.clocks.countP Clock.realtime = 0 := by
          rw [rt] at absent
          exact List.countP_eq_zero.mpr (lastIdx_none.mp absent)
        omega
    · cases picked
  · refine ⟨fun waits => ?_, fun one _ _ => ?_, fun place picked => ?_⟩
    · rcases waits with ⟨c, member, coming⟩ | many
      · exact absurd coming (noneComing (by omega) c member)
      · omega
    · omega
    · have real : found.rt = some place := picked
      dsimp only
      rw [real, Option.map_some, Option.getD_some]
      exact realtime_source visited (rt.symm.trans real)
  · -- Exactly one source is left, and it is a SLAVE.
    cases there : lastIdx (Clock.inState .slave) node.clocks with
    | none =>
      rw [src] at unready
      exact absurd ⟨Nat.pos_iff_ne_zero.mpr sourceless, there⟩ unready
    | some place =>
      obtain ⟨c, member, slave⟩ := lastIdx_some there
      have positive := List.countP_pos_iff.mpr ⟨c, List.mem_of_getElem? member, slave⟩
      refine ⟨fun waits => ?_, fun one _ _ other d also slaveToo => ?_, fun other picked => ?_⟩
      · rcases waits with ⟨c, member, coming⟩ | many
        · exact absurd coming (noneComing (by omega) c member)
        · omega
      · obtain rfl := place_unique (Nat.le_of_eq one) member slave also slaveToo
        exact src.trans there
      · have picked : found.src = some other := picked
        rw [src, there] at picked
        obtain rfl := Option.some.inj picked
        exact source_spared visited rt member slave

end Safety

/-- After `reconfigure` the choice is safe exactly if no default clock was picked too early.

Proof: the survey looks at each clock once and counts it by its state. If the default clock is not
taken, the choice is that of the survey, which is safe. If it is taken it is safe unless a clock is
still on its way to be a slave, and that is when the choice was hasty. -/
theorem reconfigure_safe (e : Nat → Survey) {node : Node} (settled : node.Settled) :
    Safe node (reconfigure e node) ↔ ¬ Hasty node := by
  obtain ⟨visited, counted⟩ := survey_spec e 0 node.clocks node.ports {}
  unfold reconfigure
  generalize survey e 0 node.clocks node.ports {} = result at visited counted ⊢
  obtain ⟨clocks, ports, found⟩ := result
  dsimp only at visited counted ⊢
  obtain ⟨rt, src, _⟩ := counted_all counted
  have dstCnt := counted.dstCnt
  simp only [Nat.zero_add] at dstCnt
  have unavailable := unavailable_iff settled visited rt
  have absent : found.src = none ↔ ∀ c ∈ node.clocks, ¬ c.inState .slave := by
    rw [src]
    exact lastIdx_none
  by_cases taken : found.dstCnt > 1 ∧ found.src = none ∧
      (found.rt.bind (clocks[·]?)).all Clock.destOnly
  · obtain ⟨place, picked, source⟩ :
        ∃ place, (select e found clocks ports).master = some place ∧
          ∃ c, (select e found clocks ports).clocks[place]? = some c ∧ updateNeeded c = false :=
      select_default visited counted taken
    constructor
    · intro safe hasty
      have waiting := safe.waits (Or.inl hasty.coming)
      rw [picked] at waiting
      cases waiting
    · intro patient
      have none : node.clocks.countP (Clock.inState .slave) = 0 :=
        List.countP_eq_zero.mpr (absent.mp taken.2.1)
      refine ⟨fun waits => ?_, fun one => ?_, fun other same => ?_⟩
      · rcases waits with coming | many
        · exact absurd ⟨coming, absent.mp taken.2.1, dstCnt ▸ taken.1,
            unavailable.mp taken.2.2⟩ patient
        · omega
      · omega
      · obtain rfl := Option.some.inj (picked.symm.trans same)
        exact source
  · refine iff_of_true (select_safe settled visited counted taken) fun hasty => taken ?_
    exact ⟨dstCnt ▸ hasty.several, absent.mpr hasty.absent, unavailable.mpr hasty.unavailable⟩

/-- A clock in a state, with a change to another one if there is one. -/
def exampleClock (clkid : Int) (state : PortState) (newState : Option PortState := none) : Clock :=
  { clkid := clkid, state := some state, newState := newState, device := [] }

/-- Two clocks to be synchronised and a source, one of them by a change, with the realtime clock. -/
def readyNode : Node where
  clocks := [exampleClock 1 .master, exampleClock 2 .uncalibrated (some .slave),
    exampleClock 3 .disabled, exampleClock clockRealtime .slave]

/-- A node with one slave and one clock to be synchronised. -/
theorem reconfigure_safe_ready :
    readyNode.Settled ∧ (Safe readyNode (reconfigure (fun _ => {}) readyNode) ↔ ¬ Hasty readyNode) := by
  have settled : readyNode.Settled := by
    refine ⟨by decide, ?_⟩
    intro c member _
    simp only [readyNode, List.mem_cons, List.not_mem_nil, or_false] at member
    rcases member with rfl | rfl | rfl | rfl <;> exact ⟨_, rfl, by decide⟩
  exact ⟨settled, reconfigure_safe _ settled⟩

/-- Two clocks to be synchronised and one that is about to become a source. -/
def comingNode : Node where
  clocks := [exampleClock 1 .master, exampleClock 2 .master, exampleClock 3 .uncalibrated]

/-- The clock that is about to become a source is made one at once. -/
theorem reconfigure_hasty :
    comingNode.Settled ∧ (reconfigure (fun _ => {}) comingNode).master = some 2 ∧
      ¬ Safe comingNode (reconfigure (fun _ => {}) comingNode) := by
  have picked : (reconfigure (fun _ => {}) comingNode).master = some 2 := by decide
  refine ⟨⟨by decide, ?_⟩, picked, fun safe => ?_⟩
  · intro c member _
    simp only [comingNode, List.mem_cons, List.not_mem_nil, or_false] at member
    rcases member with rfl | rfl | rfl <;> exact ⟨_, rfl, by decide⟩
  · have waiting := safe.waits (Or.inl ⟨_, List.mem_of_getElem? (i := 2) rfl, by decide⟩)
    rw [picked] at waiting
    cases waiting

/-! ## Nodes at work -/

/-- What a node does between two moments. -/
inductive NodeEvent where
  /-- A PORT_DATA_SET is received. -/
  | portState (number : Nat) (state : Int)
  | reconfigure (e : Nat → Survey)

/-- The state of a clock with the supplied state of its ports: the clock, and whether this is news. -/
def newClockState (state : PortState) (c : Clock) : Clock × Bool :=
  if c.state ≠ some state ∨ c.newState ≠ none then ({ c with newState := some state }, true)
  else (c, false)

/-- The case of `recv_subscribed`, for a port that is known. -/
def recvPortState (place : Nat) (state : Int) (node : Node) : Node :=
  match node.ports[place]? with
  | none => node
  | some p =>
    let state := normalizeState state
    if p.state = state then node else
      let ports := node.ports.set place
        { p with state := state, normal := normalizeState_computed _ }
      let computed := clockComputeState ports p.clock
      let news := (node.clocks[p.clock]?).any fun c => (newClockState computed c).2
      { node with
        ports := ports
        clocks := node.clocks.modify p.clock fun c => (newClockState computed c).1
        stateChanged := node.stateChanged || news }

/-- One step of a node. -/
def nodeStep (node : Node) : NodeEvent → Node
  | .portState number state =>
    match node.ports.findIdx? fun p => p.number = number with
    | none => node
    | some place => recvPortState place state node
  | .reconfigure e => reconfigure e node

/-- No device is opened as the realtime clock. -/
def Survey.Honest (e : Survey) : Prop :=
  ∀ device clkid phcIndex, e.opens device = some (clkid, phcIndex) → clkid ≠ clockRealtime

section Work

/-- The states of a clock are computed ones, and a clock other than the realtime one has one. -/
structure Clock.Fine (c : Clock) : Prop where
  state : ∀ state, c.state = some state → Computed state
  change : ∀ state, c.newState = some state → Computed state
  present : ¬ c.realtime → c.pending ≠ none

/-- A clock stays fine, and no clock becomes the realtime one. -/
structure Clock.Becomes (c c' : Clock) : Prop where
  fine : c.Fine → c'.Fine
  realtime : c'.realtime → c.realtime

/-- The clocks are fine, and at most one of them is the realtime clock. -/
structure Node.Orderly (node : Node) : Prop where
  single : node.clocks.countP Clock.realtime ≤ 1
  fine : ∀ c ∈ node.clocks, c.Fine

variable {node : Node} {clocks before after : List Clock}

/-- A state that is put off is one of those that are computed. -/
theorem Clock.Fine.pending {c : Clock} (fine : c.Fine) {state : PortState}
    (pending : c.pending = some state) : Computed state := by
  unfold Clock.pending at pending
  rcases Option.or_eq_some_iff.mp pending with change | ⟨_, kept⟩
  · exact fine.change state change
  · exact fine.state state kept

/-- Between two configurations a node is settled. -/
theorem Node.Orderly.settled (orderly : node.Orderly) : node.Settled where
  single := orderly.single
  computed c member other := by
    obtain ⟨state, pending⟩ := Option.ne_none_iff_exists'.mp ((orderly.fine c member).present other)
    exact ⟨state, pending, (orderly.fine c member).pending pending⟩

/-- A clock that is left alone. -/
theorem Clock.Becomes.refl (c : Clock) : c.Becomes c := ⟨id, id⟩

/-- A list of clocks that are left alone. -/
theorem becomes_self (clocks : List Clock) : List.Forall₂ Clock.Becomes clocks clocks :=
  List.forall₂_same.mpr fun c _ => .refl c

/-- Two changes of a list of clocks. -/
theorem becomes_trans {between : List Clock} (first : List.Forall₂ Clock.Becomes before between)
    (second : List.Forall₂ Clock.Becomes between after) :
    List.Forall₂ Clock.Becomes before after := by
  induction first generalizing after with
  | nil => exact second
  | cons here _ inductionHypothesis =>
    cases second with
    | cons next rest =>
      refine .cons ⟨fun fine => next.fine (here.fine fine), fun realtime => ?_⟩
        (inductionHypothesis rest)
      exact here.realtime (next.realtime realtime)

/-- One clock of the list is changed. -/
theorem becomes_modify {change : Clock → Clock} (place : Nat)
    (becomes : ∀ c, clocks[place]? = some c → c.Becomes (change c)) :
    List.Forall₂ Clock.Becomes clocks (clocks.modify place change) := by
  induction clocks generalizing place with
  | nil =>
    rw [List.modify_nil]
    exact .nil
  | cons c clocks inductionHypothesis =>
    cases place with
    | zero =>
      rw [List.modify_zero_cons]
      exact .cons (becomes c rfl) (becomes_self clocks)
    | succ place =>
      rw [List.modify_succ_cons]
      exact .cons (.refl c) (inductionHypothesis place becomes)

/-- Orderly clocks stay so. -/
theorem orderly_of_becomes (orderly : node.Orderly) {node' : Node}
    (becomes : List.Forall₂ Clock.Becomes node.clocks node'.clocks) : node'.Orderly := by
  obtain ⟨single, fine⟩ := orderly
  generalize node.clocks = before at *
  suffices both : node'.clocks.countP Clock.realtime ≤ before.countP Clock.realtime ∧
      ∀ c ∈ node'.clocks, c.Fine from ⟨both.1.trans single, both.2⟩
  clear single
  generalize node'.clocks = after at *
  induction becomes with
  | nil => exact ⟨Nat.le_refl _, fine⟩
  | @cons c c' before after here _ inductionHypothesis =>
    obtain ⟨mine, others⟩ := List.forall_mem_cons.mp fine
    obtain ⟨fewer, rest⟩ := inductionHypothesis others
    refine ⟨?_, List.forall_mem_cons.mpr ⟨here.fine mine, rest⟩⟩
    rw [List.countP_cons, List.countP_cons]
    by_cases realtime : c'.realtime
    · rw [if_pos realtime, if_pos (here.realtime realtime)]
      omega
    · rw [if_neg realtime]
      omega

/-- A clock whose state is set to a computed one, with a change that is a computed one. -/
theorem fine_of_state {c : Clock} {state : PortState} (set : c.state = some state)
    (computed : Computed state) (change : ∀ other, c.newState = some other → Computed other) :
    c.Fine where
  state other same := Option.some.inj (set.symm.trans same) ▸ computed
  change := change
  present _ none := by
    rw [Clock.pending, Option.or_eq_none_iff, set] at none
    cases none.2

/-- A clock is made a slave. -/
theorem becomes_slave (c : Clock) : c.Becomes { c with state := some .slave } where
  fine fine := fine_of_state rfl (by decide) fine.change
  realtime := id

/-- A clock becomes the source by default, and its own state is put off. -/
theorem becomes_default (c : Clock) :
    c.Becomes { c with newState := c.state, state := some .slave } where
  fine fine := fine_of_state rfl (by decide) fine.state
  realtime := id

/-- What `clock_reinit` leaves of a clock. -/
theorem clockReinit_clock {e : Survey} (honest : e.Honest) (clock : Nat) (newState : PortState)
    (c : Clock) (ports : List Port) :
    (clockReinit e clock newState c ports).1.state = c.state ∧
      (clockReinit e clock newState c ports).1.newState = c.newState ∧
      ((clockReinit e clock newState c ports).1.realtime → c.realtime) := by
  have reset : ∀ (switched : Bool) (d : Clock), (resetServo newState switched d).state = d.state ∧
      (resetServo newState switched d).newState = d.newState ∧
      (resetServo newState switched d).realtime = d.realtime := by
    intro switched d
    unfold resetServo
    split <;> exact ⟨rfl, rfl, rfl⟩
  have kept : ∀ (switched : Bool) (d : Clock), d.state = c.state → d.newState = c.newState →
      (d.realtime → c.realtime) → (resetServo newState switched d).state = c.state ∧
        (resetServo newState switched d).newState = c.newState ∧
        ((resetServo newState switched d).realtime → c.realtime) := by
    intro switched d state change realtime
    obtain ⟨first, second, third⟩ := reset switched d
    exact ⟨first.trans state, second.trans change, fun holds => realtime (third ▸ holds)⟩
  unfold clockReinit
  dsimp only
  split
  · exact kept false c rfl rfl id
  split
  · exact kept false c rfl rfl id
  split
  · exact kept false _ rfl rfl id
  split
  · exact kept false _ rfl rfl id
  split
  · exact ⟨rfl, rfl, id⟩
  next clkid phcIndex opened =>
    refine kept true _ rfl rfl fun holds => ?_
    exact absurd (of_decide_eq_true holds) (honest _ _ _ opened)

/-- Looking at the clocks takes states that were put off, and no others. -/
theorem survey_becomes {e : Nat → Survey} (honest : ∀ clock, (e clock).Honest) (place : Nat)
    (clocks : List Clock) (ports : List Port) (found : Candidates) :
    List.Forall₂ Clock.Becomes clocks (survey e place clocks ports found).1 := by
  induction clocks generalizing place ports found with
  | nil => exact .nil
  | cons c clocks inductionHypothesis =>
    unfold survey
    split
    · exact .cons (.refl c) (inductionHypothesis _ _ _)
    · refine .cons ?_ (inductionHypothesis _ _ _)
      unfold applyPending
      split
      · exact .refl c
      next newState change =>
        obtain ⟨_, _, realtime⟩ := clockReinit_clock (honest place) place newState c ports
        exact ⟨fun fine => fine_of_state rfl (fine.change _ change) (fun _ none => by cases none),
          realtime⟩

/-- The selection writes the default source only. -/
theorem select_becomes {e : Nat → Survey} (honest : ∀ clock, (e clock).Honest)
    (found : Candidates) (clocks : List Clock) (ports : List Port) :
    List.Forall₂ Clock.Becomes clocks (select e found clocks ports).clocks := by
  have slaves : ∀ clocks : List Clock, List.Forall₂ Clock.Becomes clocks
      ((found.rt.map (setState .slave · clocks)).getD clocks) := by
    intro clocks
    cases found.rt with
    | none => exact becomes_self clocks
    | some rt => exact becomes_modify rt fun c _ => becomes_slave c
  have default : List.Forall₂ Clock.Becomes clocks
      ((found.last.map (makeDefault · clocks)).getD clocks) := by
    cases found.last with
    | none => exact becomes_self clocks
    | some last => exact becomes_modify last fun c _ => becomes_default c
  unfold select
  dsimp only
  split_ifs
  · exact becomes_trans default (slaves _)
  · exact becomes_self clocks
  · exact becomes_self clocks
  · exact becomes_self clocks
  · exact becomes_self clocks
  · exact slaves clocks
  · cases found.rt with
    | none => exact becomes_self clocks
    | some rt =>
      rw [Option.map_some, Option.getD_some]
      unfold makeDestination
      split
      · exact becomes_self clocks
      next c there =>
        split
        · exact becomes_self clocks
        · obtain ⟨state, change, realtime⟩ :=
            clockReinit_clock (honest rt) rt .master { c with state := some .master } ports
          dsimp only
          rw [List.set_eq_modify]
          refine becomes_modify rt fun d same => ?_
          obtain rfl := Option.some.inj (there.symm.trans same)
          exact ⟨fun fine => fine_of_state state (by decide) fun other same =>
            fine.change other (change.symm.trans same), realtime⟩

/-- A state that comes from the network is taken or put off. -/
theorem newClockState_becomes {state : PortState} (computed : Computed state) (c : Clock) :
    c.Becomes (newClockState state c).1 := by
  unfold newClockState
  split
  · refine ⟨fun fine => ⟨fine.state, fun other same => ?_, fun _ none => ?_⟩, id⟩
    · exact Option.some.inj same ▸ computed
    · rw [Clock.pending, Option.some_or] at none
      cases none
  · exact .refl c

/-- Every step of a node keeps its clocks orderly. -/
theorem nodeStep_orderly {node : Node} (orderly : node.Orderly) {event : NodeEvent}
    (honest : ∀ e, event = .reconfigure e → ∀ clock, (e clock).Honest) :
    (nodeStep node event).Orderly := by
  cases event with
  | reconfigure e =>
    refine orderly_of_becomes orderly (becomes_trans (survey_becomes (honest e rfl) 0 _ node.ports {}) ?_)
    exact select_becomes (honest e rfl) _ _ _
  | portState number state =>
    unfold nodeStep
    dsimp only
    split
    · exact orderly
    unfold recvPortState
    split
    · exact orderly
    next p there =>
      dsimp only
      split
      · exact orderly
      · refine orderly_of_becomes orderly (becomes_modify p.clock fun c _ => ?_)
        exact newClockState_becomes (clockComputeState_computed _ _) c

/-- At every moment of a run the clocks are as `reconfigure` expects them. -/
theorem run_settled {node : Node} (orderly : node.Orderly) {events : List NodeEvent}
    (honest : ∀ e, NodeEvent.reconfigure e ∈ events → ∀ clock, (e clock).Honest) :
    (events.foldl nodeStep node).Settled := by
  have along : Runs.Along nodeStep (fun _ event =>
      ∀ e, event = .reconfigure e → ∀ clock, (e clock).Honest) node events :=
    Runs.along_of_forall fun event member _ e same => honest e (same ▸ member)
  exact (along.keeps orderly fun _ _ orderly honest => nodeStep_orderly orderly honest).settled

end Work

end LinuxPtp.Phc2sys
