import LinuxPtp.ClockRuns
import LinuxPtp.ElectionOrder

/-!
# The best master of the clock

The state decision makes a pointer to the record of the best foreign master, and the records are
freed when a port is disabled. As long as the port of the best master is not put out of service
between two decisions, the pointer points to a record that exists.

The invariant is about records and pointers of all ports, since any port may come to be that of
the best master. It is checked for the effects of a handler one by one, and the state decision
makes it anew.
-/

namespace LinuxPtp

open RefPool Runs

/-! ## The election keeps the records -/

section Election

variable {c : Clock} {a : Answers}

theorem considerForeign_id (p : Nat) (best : Option ForeignClock) (fc : ForeignClock)
    (s : ClockState) : (considerForeign c a p best fc s).2.1.id = fc.id := by
  unfold considerForeign
  split
  · rfl
  next tmp _ =>
    have same := fcPrune_id (a.pruned fc.id)
      (fc.withDataset (announceToDataset c p tmp.msg)) s
    dsimp only [ForeignClock.withDataset] at same ⊢
    split
    · exact same
    · split
      · exact same
      · split
        · exact same
        · rw [fcClear_record]
          exact same

/-- A comparison of all records prunes them and leaves their addresses and their order. -/
theorem considerAll_addresses (p : Nat) (best : Option ForeignClock) (list : List ForeignClock)
    (s : ClockState) :
    (considerAll c a p best list s).2.1.map ForeignClock.id = list.map ForeignClock.id := by
  induction list generalizing best s with
  | nil => rfl
  | cons fc rest inductionHypothesis =>
    unfold considerAll
    dsimp only
    rw [List.map_cons, List.map_cons, considerForeign_id, inductionHypothesis]

/-- An election at one port leaves the addresses of the records of every port. -/
theorem portComputeBest_addresses (p q : Nat) (s : ClockState) :
    ((portComputeBest c a p s).2.ports q).addresses = (s.ports q).addresses := by
  by_cases here : q = p
  · subst here
    unfold portComputeBest
    split
    · rw [withPort_same]
      rfl
    · obtain ⟨msgs, same⟩ := considerAll_state c a q none (s.ports q).foreignMasters s
      dsimp only
      rw [same, withPort_same]
      exact considerAll_addresses ..
  · rw [portComputeBest_other c a here]

/-- What comes out of an election was a candidate. -/
theorem elect_mem {α : Type} {compare : α → α → Int} {candidates : List α} {best : α}
    (elected : Election.elect compare candidates = some best) : best ∈ candidates := by
  have walk : ∀ (list : List α) (first : Option α), list.foldl (Election.keep compare) first =
      some best → first = some best ∨ best ∈ list := by
    intro list
    induction list with
    | nil => exact fun _ same => Or.inl same
    | cons next rest inductionHypothesis =>
      intro first same
      rcases inductionHypothesis _ same with kept | member
      · unfold Election.keep at kept
        split at kept
        · exact Or.inr (Option.some.inj kept ▸ List.mem_cons_self)
        · split at kept
          · exact Or.inr (Option.some.inj kept ▸ List.mem_cons_self)
          · exact Or.inl kept
      · exact Or.inr (List.mem_cons_of_mem _ member)
  rcases walk candidates none elected with impossible | member
  · cases impossible
  · exact member

theorem qualify_id {p : Nat} {fc best : ForeignClock} (qualified : qualify c a p fc = some best) :
    best.id = fc.id := by
  unfold qualify at qualified
  split at qualified
  · cases qualified
  · dsimp only at qualified
    split at qualified
    · cases qualified
    · rw [← Option.some.inj qualified]
      rfl

/-- The best of a port is one of its records, so its address is listed there. -/
theorem portComputeBest_listed {p : Nat} {s : ClockState} {fc : ForeignClock}
    (found : (portComputeBest c a p s).1 = some fc) : fc.id ∈ (s.ports p).addresses := by
  rw [portComputeBest_best] at found
  have candidate := elect_mem found
  unfold candidates at candidate
  split at candidate
  · cases candidate
  · obtain ⟨record, member, qualified⟩ := List.mem_filterMap.mp candidate
    rw [qualify_id qualified]
    exact List.mem_map_of_mem member

/-- An election among some ports leaves the addresses of the records of every port, by induction on
the ports. -/
theorem electFrom_addresses (list : List Nat) (best : Option Best) (s : ClockState) (q : Nat) :
    ((electFrom c a list best s).2.ports q).addresses = (s.ports q).addresses := by
  induction list generalizing best s with
  | nil => rfl
  | cons p rest inductionHypothesis =>
    rw [electFrom_cons, inductionHypothesis, portComputeBest_addresses]

/-- The best after a port is the one before it or the best of that port. -/
theorem keepBest_cases {p : Nat} {best : Option Best} {found : Option ForeignClock} {b : Best}
    (kept : keepBest c p best found = some b) :
    best = some b ∨ ∃ fc, found = some fc ∧ b = bestOf p fc := by
  unfold keepBest at kept
  split at kept
  · exact Or.inl kept
  next fc =>
    split at kept
    · exact Or.inr ⟨fc, rfl, (Option.some.inj kept).symm⟩
    · split at kept
      · exact Or.inr ⟨fc, rfl, (Option.some.inj kept).symm⟩
      · exact Or.inl kept

/-- The best of the clock is a record of one of the ports. -/
theorem electFrom_listed {list : List Nat} {best : Option Best} {s : ClockState} {b : Best}
    (elected : (electFrom c a list best s).1 = some b) :
    best = some b ∨ b.port ∈ list ∧ b.id ∈ (s.ports b.port).addresses := by
  induction list generalizing best s with
  | nil => exact Or.inl elected
  | cons p rest inductionHypothesis =>
    rw [electFrom_cons] at elected
    rcases inductionHypothesis elected with kept | ⟨member, listed⟩
    · rcases keepBest_cases kept with before | ⟨fc, found, rfl⟩
      · exact Or.inl before
      · exact Or.inr ⟨List.mem_cons_self, portComputeBest_listed found⟩
    · rw [portComputeBest_addresses] at listed
      exact Or.inr ⟨List.mem_cons_of_mem _ member, listed⟩

end Election

/-! ## The pointer -/

/-- The best master of the clock is one of the foreign masters of its port. -/
def BestListed (s : ClockState) : Prop :=
  ∀ best, s.best = some best → ∃ fc ∈ (s.ports best.port).foreignMasters, fc.id = best.id

/-- The same for a port of the clock. -/
structure BestHeld (c : Clock) (s : ClockState) : Prop where
  listed : ∀ best, s.best = some best → best.id ∈ (s.ports best.port).addresses
  port : ∀ best, s.best = some best → best.port ∈ c.ports

theorem BestHeld.bestListed {c : Clock} {s : ClockState} (held : BestHeld c s) : BestListed s :=
  fun best selected => List.mem_map.mp (held.listed best selected)

/-- What is known of the best depends on the pointer and on the addresses alone. -/
theorem BestHeld.congr {c : Clock} {s t : ClockState} (held : BestHeld c s)
    (best : t.best = s.best) (same : ∀ q, (t.ports q).addresses = (s.ports q).addresses) :
    BestHeld c t where
  listed := by
    intro b selected
    rw [same]
    exact held.listed b (best ▸ selected)
  port := by
    intro b selected
    exact held.port b (best ▸ selected)

/-- The port of the best master is not put out of service by a step. -/
def SparesBest (c : Clock) (s : PollState) : PollStep → Prop
  | .enter _ | .faultTimer _ _ => True
  | .descriptor p fd a => s.faulted = false → ∀ best, s.clock.best = some best →
      if best.port = p then
        (portEvent c a p fd s.clock).1 ≠ .faultDetected ∧ ∀ tick, a.switches p tick = true
      else c.relays → ∀ tick, a.egress best.port tick = true
  | .uds _ a => ∀ best, s.clock.best = some best → c.relays → ∀ tick, a.egress best.port tick = true
  | .decide a => s.clock.sde = true → ∀ p ∈ c.ports, ∀ tick, a.switches p tick = true

section Pointer

variable {c : Clock} {a : Answers} {s t : ClockState}

/-- Guards under which the port of the best master is not put out of service. -/
def Guards.sparing (before : ClockState) (here : Nat) : Guards where
  before := before
  here := here
  faults q := ∀ best, before.best = some best → best.port ≠ q
  follows _ := True
  takes _ := True
  slips _ := True
  delivers _ := True

/-- At a clock that works the port of the best is at work, so the guards that spare it count all
others as faulty. -/
theorem BestHeld.fresh (held : BestHeld c s) (working : Working c s) (p : Nat) :
    Fresh (Guards.sparing s p) s := by
  rintro q idle best selected rfl
  have works := working best.port (Or.inr (held.port best selected))
  rcases idle with initializing | disabled
  · exact works.1 initializing
  · exact works.2 disabled

/-- Effects that spare the records of the best leave the pointer where it is, and what it points to
is still listed. -/
theorem Effects.bestHeld {before : ClockState} {p : Nat}
    (effects : Effects c a (Guards.sparing before p) s t) (best : s.best = before.best)
    (held : BestHeld c s) : t.best = before.best ∧ BestHeld c t := by
  have both : s.best = before.best ∧ BestHeld c s := ⟨best, held⟩
  apply effects.keeps both
  rintro s t effect ⟨best, held⟩
  have same := effect.undecided.best
  refine ⟨same.trans best, ?_, fun b selected => held.port b (same ▸ selected)⟩
  intro b selected
  rw [same] at selected
  rcases (effect.port b.port).foreign with kept | ⟨_, grown⟩ | ⟨fault, _⟩
  · unfold Port.addresses
    rw [kept]
    exact held.listed b selected
  · exact grown (held.listed b selected)
  · exact absurd rfl (fault b (best ▸ selected))

/-- An election sets the pointer anew, so nothing is asked of where it was before. -/
theorem decided_bestHeld (s : ClockState) : BestHeld c (decided c a s).2 := by
  have elected : ∀ b, (electBest c a c.ports s).1 = some b →
      b.port ∈ c.ports ∧ b.id ∈ (s.ports b.port).addresses := by
    intro b elected
    rcases electFrom_listed elected with impossible | listed
    · cases impossible
    · exact listed
  unfold decided
  rw [adoptBest_eq]
  constructor
  · intro b selected
    have addresses := electFrom_addresses (c := c) (a := a) c.ports none s b.port
    have listed := (elected b selected).2
    rw [← addresses] at listed
    exact listed
  · exact fun b selected => (elected b selected).1

/-- A recommendation to one port keeps the best if the physical clock can be switched: a port whose
clock cannot is FAULTY and loses its records. -/
theorem recommend_bestHeld {freshBest : Bool} {p : Nat} (working : Working c s)
    (held : BestHeld c s) (switches : ∀ tick, a.switches p tick = true) :
    BestHeld c (recommend c a freshBest s p) := by
  obtain ⟨_, _, _, _, _, _, same⟩ := informed_state (c := c) (bmcStateDecision c p s) s
  have work : Works c a (Guards.sparing s p) (informed c (bmcStateDecision c p s) s)
      (recommend c a freshBest s p) := by
    apply recommend_works (held.fresh working p)
    · exact fun _ => trivial
    · rintro ⟨tick, failed⟩
      rw [switches tick] at failed
      cases failed
  have best : (informed c (bmcStateDecision c p s) s).best = s.best := by rw [same]
  have still : BestHeld c (informed c (bmcStateDecision c p s) s) := by
    apply held.congr best
    intro q
    rw [same]
  exact (work.effects.bestHeld best still).2

/-- A state decision sets the pointer anew and then keeps it, port by port, by induction on the
ports. -/
theorem handleDecision_bestHeld (working : Working c s) (held : BestHeld c s)
    (switches : s.sde = true → ∀ p ∈ c.ports, ∀ tick, a.switches p tick = true) :
    BestHeld c (handleDecision c a s) := by
  unfold handleDecision
  split
  next due =>
    have done := (recommendations_keep (a := a) working (decided_bestHeld s)
      fun p mine t working held => recommend_bestHeld working held (switches due p mine)).2
    exact done.congr rfl fun _ => rfl
  next => exact held

/-- A fault timer is no concern of the best. -/
theorem BestHeld.armFault (held : BestHeld c s) (p : Nat) : BestHeld c (armFault c p s) := by
  refine held.congr (t := LinuxPtp.armFault c p s) rfl ?_
  intro q
  obtain ⟨_, same⟩ := armFault_port (c := c) p q s
  rw [same]
  rfl

theorem BestHeld.disarmFault (held : BestHeld c s) (p : Nat) : BestHeld c (disarmFault p s) := by
  refine held.congr (t := LinuxPtp.disarmFault p s) rfl ?_
  intro q
  obtain ⟨_, same⟩ := disarmFault_port p q s
  rw [same]
  rfl

/-- The condition on a descriptor says what the guards have to allow. -/
theorem allowsStep_sparing {s : PollState} {p : Nat} {fd : Descriptor} (working : Working c s.clock)
    (held : BestHeld c s.clock) (busy : s.faulted = false)
    (spares : SparesBest c s (.descriptor p fd a)) :
    AllowsStep c a (Guards.sparing s.clock p) fd := by
  have condition := spares busy
  refine ⟨⟨⟨?switches, ?egress, ?monitor, ?slips⟩, fun _ _ _ _ => trivial, ?delivers⟩, ?faulted,
    held.fresh working p⟩
  case switches =>
    rintro ⟨tick, failed⟩ best selected rfl
    have here := condition best selected
    rw [if_pos rfl] at here
    have succeeds := here.2 tick
    rw [show (Guards.sparing s.clock best.port).here = best.port from rfl, succeeds] at failed
    cases failed
  case egress =>
    rintro relays q differ ⟨tick, failed⟩ best selected rfl
    have here := condition best selected
    rw [if_neg (show best.port ≠ p from differ)] at here
    rw [here relays tick] at failed
    cases failed
  case faulted =>
    rintro fault best selected rfl
    have here := condition best selected
    rw [if_pos rfl] at here
    exact here.1 fault
  all_goals
    intros
    trivial

/-- A step that spares the records of the best keeps it. The step of a descriptor is a series of
effects, and that of a state decision elects first. -/
theorem pollStep_bestHeld {s : PollState} {step : PollStep} (working : Working c s.clock)
    (held : BestHeld c s.clock) (spares : SparesBest c s step) :
    BestHeld c (pollStep c s step).clock := by
  cases step with
  | enter p => exact held
  | descriptor p fd a =>
    apply pollStep_descriptor (BestHeld c) held
    · intro busy
      have work : Works c a (Guards.sparing s.clock p) s.clock
          (handleDescriptor c a p fd s.clock) :=
        handleDescriptor_works (allowsStep_sparing working held busy spares) rfl
      exact (work.effects.bestHeld rfl held).2
    · exact fun t held => held.armFault p
  | faultTimer p a =>
    have disarmed := held.disarmFault p
    have works : Working c (disarmFault p s.clock) := by
      apply working.congr
      intro q
      obtain ⟨_, same⟩ := disarmFault_port p q s.clock
      rw [same]
    have work : Works c a (Guards.sparing (disarmFault p s.clock) p) (disarmFault p s.clock)
        (handleFaultTimer c a p s.clock) := handleFaultTimer_works rfl (disarmed.fresh works p)
    exact (work.effects.bestHeld rfl disarmed).2
  | uds fd a =>
    have allows : AllowsDescriptor c a (Guards.sparing s.clock 0) fd := by
      refine ⟨⟨?switches, ?egress, ?monitor, ?slips⟩, fun _ _ _ _ => trivial, ?delivers⟩
      case switches =>
        rintro _ best selected uds
        have mine := held.port best selected
        rw [uds] at mine
        exact zero_not_mem_ports c mine
      case egress =>
        rintro relays q _ ⟨tick, failed⟩ best selected rfl
        rw [spares best selected relays tick] at failed
        cases failed
      all_goals
        intros
        trivial
    have work : Works c a (Guards.sparing s.clock 0) s.clock (handleUds c a fd s.clock) :=
      handleUds_works allows rfl rfl
    exact (work.effects.bestHeld rfl held).2
  | decide a => exact handleDecision_bestHeld working held spares

end Pointer

/-! ## Runs -/

/-- At the start nothing was elected, so there is no pointer that could be wrong. -/
theorem bestHeld_start (c : Clock) (start : StartUp) : BestHeld c (start.state c).clock := by
  obtain ⟨_, _, _, _, _, same⟩ := clockStart_frame (c := c) (a := start.answers)
    (clockOpen c start.dds start.utcOffset start.timeSource start.realtime)
  unfold StartUp.state
  rw [same]
  constructor
  · intro best selected
    cases selected
  · intro best selected
    cases selected

/-- At every moment of a run whose steps spare the port of the best master, the best master of the
clock is NULL or one of the foreign masters of a port.

Proof: a stronger invariant also says which records the ports keep and what every pointer to one of
them is. An effect of a handler keeps it unless the records of the best port are given up, which is
what the condition on the steps leaves out. -/
theorem best_listed {c : Clock} {start : StartUp} {polls : List Poll} {events : List PollStep}
    (moment : events <+: polls.flatMap (Poll.steps c))
    (spared : Along (pollStep c) (SparesBest c) (start.state c) events) :
    BestListed (events.foldl (pollStep c) (start.state c)).clock := by
  have held : BestHeld c (events.foldl (pollStep c) (start.state c)).clock := by
    apply run_keeps (fun s => BestHeld c s.clock) moment spared (bestHeld_start c start)
    exact fun s step working _ held spares => pollStep_bestHeld working held spares
  exact held.bestListed

/-- A clock with the default settings. -/
def plainStart : StartUp where
  dds := ⟨128, ⟨248, 254, 65535⟩, 128⟩

/-- A message arrives at a socket. -/
def arrival (msg : PtpMessage) : ReadyDescriptor := ⟨.general, { received := .message msg }⟩

/-- A poll in which descriptors of one port are ready. -/
def pollOf (p : Nat) (ready : List ReadyDescriptor) : Poll where
  ready q := if q = p then ready else []
  faultTimer _ := none
  decision := {}

/-- Enough announces of one foreign master on the first port. -/
def electingPoll : Poll :=
  pollOf 1 [arrival (announceFrom 5), arrival (announceFrom 5), arrival (announceFrom 5)]

/-- An Announce causes no fault, whatever the state of the clock. -/
theorem announce_no_fault (p : Nat) (s : ClockState) :
    (portEvent smallClock (arrival (announceFrom 5)).answers p .general s).1 ≠ .faultDetected := by
  change (bcReceive smallClock (arrival (announceFrom 5)).answers p s).1 ≠ .faultDetected
  unfold bcReceive
  dsimp only [arrival]
  split
  · nofun
  · change (decisionIf _).1 ≠ .faultDetected
    unfold decisionIf
    dsimp only
    split <;> nofun

theorem best_listed_announces :
    BestListed (((List.replicate 2 electingPoll).flatMap (Poll.steps smallClock)).foldl
      (pollStep smallClock) (plainStart.state smallClock)).clock := by
  apply best_listed (List.prefix_refl _)
  apply along_of_forall
  intro step member s
  have steps : step ∈ electingPoll.steps smallClock := by
    simpa using member
  let heard : PollStep := .descriptor 1 .general (arrival (announceFrom 5)).answers
  have quiet : SparesBest smallClock s heard := by
    intro _ best _
    split
    · exact ⟨announce_no_fault 1 s.clock, fun _ => rfl⟩
    · rintro (impossible | impossible) <;> cases impossible
  have listed : electingPoll.steps smallClock =
      [.enter 1, heard, heard, heard, .enter 2, .decide {}] := rfl
  rw [listed] at steps
  simp only [List.mem_cons, List.not_mem_nil, or_false] at steps
  rcases steps with rfl | rfl | rfl | rfl | rfl | rfl
  · trivial
  · exact quiet
  · exact quiet
  · exact quiet
  · trivial
  · exact fun _ _ _ _ => rfl

/-- A poll in which the first port cannot receive. -/
def failingPoll : Poll := pollOf 1 [⟨.event, {}⟩]

/-- The port of the best master faults, and the next decision has not come. -/
theorem best_dangles :
    ¬BestListed (([electingPoll, failingPoll].flatMap (Poll.steps smallClock)).foldl
      (pollStep smallClock) (plainStart.state smallClock)).clock := by
  have chosen : (([electingPoll, failingPoll].flatMap (Poll.steps smallClock)).foldl
      (pollStep smallClock) (plainStart.state smallClock)).clock.best.map Best.port = some 1 := by
    decide +kernel
  have freed : ((([electingPoll, failingPoll].flatMap (Poll.steps smallClock)).foldl
      (pollStep smallClock) (plainStart.state smallClock)).clock.ports 1).foreignMasters = [] := by
    decide +kernel
  intro listed
  obtain ⟨best, selected, port⟩ := Option.map_eq_some_iff.mp chosen
  obtain ⟨fc, member, _⟩ := listed best selected
  rw [port, freed] at member
  cases member

end LinuxPtp
