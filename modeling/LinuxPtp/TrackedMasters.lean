import LinuxPtp.BestPointer
import LinuxPtp.PortSteps

/-!
# A port that goes by a foreign master has it recorded

A port is PASSIVE, UNCALIBRATED or SLAVE because of its best foreign master. The state decision
chooses that anew for all ports before it tells any of them what to do, so that between the two a
port may go by a master that it no longer has. Everything else leaves the best foreign master to a
port as long as the port stays in one of these states.

The invariant between two events is that every port which goes by a master has it. Within a state
decision it is weakened to the ports that were told already; and that a port never reads a record
it does not have is read off what the model notes.
-/

namespace LinuxPtp

open RefPool Runs

/-- A port goes by a foreign master. -/
def PortState.watches : PortState → Bool
  | .passive | .uncalibrated | .slave => true
  | _ => false

/-- The best foreign master of a port is one of its foreign masters. -/
def Port.Recorded (port : Port) : Prop :=
  ∃ fc ∈ port.foreignMasters, port.best = some fc.id

/-- Every port that goes by a foreign master has it recorded. -/
def MastersRecorded (s : ClockState) : Prop :=
  ∀ p, (s.ports p).state.watches → (s.ports p).Recorded

/-- No port has read a best foreign master that it does not have. -/
def NeverStrayed (s : ClockState) : Prop := ∀ p, .strayed p ∉ s.log

/-! ## Ports -/

section Ports

variable {c : Clock} {a : Answers} {s t : ClockState} {p : Nat}

/-- Recorded by the record or by its address, whichever is at hand. -/
theorem recorded_iff (port : Port) :
    port.Recorded ↔ ∃ id, port.best = some id ∧ id ∈ port.addresses := by
  unfold Port.Recorded Port.addresses
  constructor
  · rintro ⟨fc, member, best⟩
    exact ⟨fc.id, best, List.mem_map_of_mem member⟩
  · rintro ⟨id, best, listed⟩
    obtain ⟨fc, member, rfl⟩ := List.mem_map.mp listed
    exact ⟨fc, member, best⟩

/-- A step aside takes no record away and leaves the best one. -/
theorem Kept.recorded {old new : Port} (kept : Kept old new) (recorded : old.Recorded) :
    new.Recorded := by
  rw [recorded_iff] at recorded ⊢
  obtain ⟨id, best, listed⟩ := recorded
  exact ⟨id, kept.best.trans best, kept.addresses listed⟩

/-- The record of the best foreign master is found. -/
theorem Port.Recorded.bestForeign {port : Port} (recorded : port.Recorded) :
    port.bestForeign.isSome := by
  obtain ⟨fc, member, best⟩ := recorded
  unfold Port.bestForeign
  rw [best]
  dsimp only [Option.bind_some]
  rw [List.find?_isSome]
  exact ⟨fc, member, decide_eq_true rfl⟩

/-- What an initialised port has of foreign masters is left to it. -/
def Spared (p : Nat) (s t : ClockState) : Prop :=
  (t.ports p).best = (s.ports p).best ∧ (s.ports p).addresses ⊆ (t.ports p).addresses

/-- What is left to a port by two steps is left to it by both. -/
theorem Spared.trans {u : ClockState} (first : Spared p s t) (second : Spared p t u) :
    Spared p s u :=
  ⟨second.1.trans first.1, List.Subset.trans first.2 second.2⟩

/-- The records are the same ones. -/
theorem Spared.of_same (best : (t.ports p).best = (s.ports p).best)
    (same : (t.ports p).foreignMasters = (s.ports p).foreignMasters) : Spared p s t := by
  refine ⟨best, ?_⟩
  unfold Port.addresses
  rw [same]
  exact List.Subset.refl _

/-- A step aside leaves the records. -/
theorem Aside.spared (aside : Aside s t) : Spared p s t := ⟨(aside p).best, (aside p).addresses⟩

/-- So the best foreign master of the port is still recorded. -/
theorem Spared.recorded (spared : Spared p s t) (recorded : (s.ports p).Recorded) :
    (t.ports p).Recorded := by
  rw [recorded_iff] at recorded ⊢
  obtain ⟨id, best, listed⟩ := recorded
  exact ⟨id, spared.1.trans best, spared.2 listed⟩

/-- What a port keeps for its own running is not its records. -/
theorem spared_running (change : PortRunning → PortRunning) :
    Spared p s (s.withRunning p change) := by
  apply Spared.of_same
  · rw [withRunning_same]
  · rw [withRunning_same]

/-- All timers are cleared. -/
theorem spared_clrTimers : Spared p s (clrTimers p s) := by
  unfold clrTimers
  generalize [Descriptor.announceTimer, .syncRxTimer, .qualificationTimer, .mannoTimer,
    .syncTxTimer] = timers
  induction timers generalizing s with
  | nil => exact (Aside.refl s).spared
  | cons fd rest inductionHypothesis => exact (spared_running _).trans inductionHypothesis

/-! ## Dispatches -/

/-- The events after which a port may go by a foreign master that it did not go by before. -/
def Chosen (event : FsmEvent) : Prop := event = .rsSlave ∨ event = .rsPassive

/-- A port that goes by a foreign master did so before, or was told to by a state decision: no other
event leads there. -/
theorem machine_watches {state : PortState} {event : FsmEvent} {mdiff : Bool}
    (watches : (c.machine state event mdiff).watches) : state.watches ∨ Chosen event := by
  unfold Clock.machine at watches
  split at watches
  · cases state <;> cases event <;> cases mdiff <;>
      simp_all [ptpSlaveFsm, PortState.watches, Chosen]
  · cases state <;> cases event <;> cases mdiff <;> simp_all [ptpFsm, PortState.watches, Chosen]

/-- A port that is told to be a master goes by no foreign master. -/
theorem machine_promotes {state : PortState} {event : FsmEvent} {mdiff : Bool}
    (master : event = .rsMaster ∨ event = .rsGrandMaster)
    (passive : c.slaveOnly → state ≠ .passive) :
    (c.machine state event mdiff).watches = false := by
  unfold Clock.machine
  split
  next slaveOnly =>
    have active := passive slaveOnly
    rcases master with rfl | rfl
    · cases state <;> first | rfl | exact absurd rfl active
    · cases state <;> first | rfl | exact absurd rfl active
  next =>
    rcases master with rfl | rfl
    · cases state <;> rfl
    · cases state <;> rfl

/-- An update after which the port goes by a foreign master made no attempt at initialisation. -/
theorem updateOf_watches {event : FsmEvent} {mdiff : Bool}
    (watches : (updateOf c a p event mdiff s).next.watches) :
    updateOf c a p event mdiff s = { next := c.machine (s.ports p).state event mdiff } := by
  apply updateOf_direct
  · intro listening
    rw [listening] at watches
    cases watches
  · intro faulty
    rw [faulty] at watches
    cases watches

/-- A port that goes by a master afterwards was not initialised on the way, so its records are left
to it. -/
theorem portUpdate_spared {event : FsmEvent} {mdiff : Bool}
    (watches : (updateOf c a p event mdiff s).next.watches) :
    Spared p s (portUpdate c a p event mdiff s).2 := by
  have attempted : attempt c a p event mdiff s = s.ask := by
    unfold attempt
    rw [updateOf_watches watches]
    rfl
  rw [portUpdate_eq, attempted]
  split
  · exact Spared.of_same rfl rfl
  · have moved (next : PortState) :
        Spared p s (s.ask.withPort p fun port => { port with state := next }) := by
      apply Spared.of_same
      · rw [withPort_same]
        rfl
      · rw [withPort_same]
        rfl
    exact (moved _).trans (Aside.of_ports rfl).spared

/-- Only the transitions out of service take records away. -/
theorem portE2eTransition_spared {next : PortState} (watches : next.watches) :
    Spared p s (portE2eTransition p next s) := by
  have cleared : Spared p s (clrTmo p .delayTimer (clrTimers p s)) :=
    spared_clrTimers.trans (spared_running _)
  unfold portE2eTransition
  cases next <;> try cases watches
  case passive => exact cleared.trans (aside_setTmo _).spared
  case uncalibrated =>
    exact cleared.trans (((aside_flushLastSync.trans aside_flushDelayReq).trans
      (aside_setTmo _)).trans (aside_setTmo _)).spared
  case slave => exact cleared.trans ((aside_setTmo _).trans (aside_setTmo _)).spared

/-- The same with the peer to peer mechanism. -/
theorem portP2pTransition_spared {next : PortState} (watches : next.watches) :
    Spared p s (portP2pTransition p next s) := by
  have cleared : Spared p s (clrTimers p s) := spared_clrTimers
  unfold portP2pTransition
  cases next <;> try cases watches
  case passive => exact cleared.trans (aside_setTmo _).spared
  case uncalibrated =>
    exact cleared.trans ((aside_flushLastSync.trans aside_flushPeerDelay).trans
      (aside_setTmo _)).spared
  case slave => exact cleared.trans (aside_setTmo _).spared

/-- The same at a transparent clock. -/
theorem tcTransition_spared (flush : Bool) {next : PortState} (watches : next.watches) :
    Spared p s (tcTransition flush p next s) := by
  have cleared : Spared p s (clrTimers p s) := spared_clrTimers
  unfold tcTransition
  cases next <;> try cases watches
  case passive => exact cleared.trans (aside_setTmo _).spared
  case uncalibrated =>
    apply cleared.trans
    cases flush
    · exact (aside_setTmo _).spared
    · exact ((aside_flushLastSync.trans aside_flushDelayReq).trans (aside_setTmo _)).spared
  case slave => exact cleared.trans (aside_setTmo _).spared

/-- The update of the state and the transition after it. -/
theorem bcTransition_spared {event : FsmEvent} {mdiff : Bool}
    (watches : (updateOf c a p event mdiff s).next.watches) :
    Spared p s (bcTransition c a p event mdiff s).2 := by
  have updated : Spared p s (portUpdate c a p event mdiff s).2 := portUpdate_spared watches
  have state := portUpdate_state c a p event mdiff s
  rw [bcTransition_eq]
  dsimp only
  split
  · exact updated
  split
  · exact updated.trans (portP2pTransition_spared (state ▸ watches))
  · exact updated.trans (portE2eTransition_spared (state ▸ watches))

/-- Another physical clock is no concern of the records. -/
theorem spared_clockSwitchPhc : Spared p s (clockSwitchPhc a p s).2 := by
  unfold clockSwitchPhc
  split <;> exact Spared.of_same rfl rfl

/-- If the switch of the physical clock fails, the port goes by no master any more, so the condition
on the state after it excludes that case. -/
theorem bcDispatch_spared {event : FsmEvent} {mdiff : Bool}
    (watches : ((bcDispatch c a p event mdiff s).ports p).state.watches) :
    (updateOf c a p event mdiff s).next.watches ∧ Spared p s (bcDispatch c a p event mdiff s) := by
  have state : ((bcTransition c a p event mdiff s).2.ports p).state =
      (updateOf c a p event mdiff s).next := bcTransition_state
  rw [bcDispatch_eq] at watches ⊢
  dsimp only at watches ⊢
  split at watches
  next condition =>
    rw [if_pos condition]
    simp only [Bool.and_eq_true, decide_eq_true_eq] at condition
    have starts : (updateOf c a p event mdiff s).next.watches := by
      rw [← state, condition.2]
      rfl
    split at watches
    next switched =>
      rw [if_pos switched]
      exact ⟨starts, (bcTransition_spared starts).trans spared_clockSwitchPhc⟩
    next failed =>
      exfalso
      have same : ((clockSwitchPhc a p (bcTransition c a p event mdiff s).2).2.ports p).state =
          .uncalibrated := by
        unfold clockSwitchPhc
        split <;> exact condition.2
      have typed : ((withFaultType p .switchPhc
          (clockSwitchPhc a p (bcTransition c a p event mdiff s).2).2).ports p).state =
          .uncalibrated := by
        unfold withFaultType
        rw [withPort_same]
        exact same
      rw [bcTransition_state] at watches
      rcases updateOf_faultDetected (c := c) (a := a) typed with ends | ends <;>
        rw [ends] at watches <;> cases watches
  next condition =>
    rw [if_neg condition]
    rw [state] at watches
    exact ⟨watches, bcTransition_spared watches⟩

/-- The same at a transparent clock, which does not switch. -/
theorem tcDispatch_spared (flush : Bool) {event : FsmEvent} {mdiff : Bool}
    (watches : ((tcDispatch c a flush p event mdiff s).ports p).state.watches) :
    (updateOf c a p event mdiff s).next.watches ∧
      Spared p s (tcDispatch c a flush p event mdiff s) := by
  rw [tcDispatch_state] at watches
  have updated : Spared p s (portUpdate c a p event mdiff s).2 := portUpdate_spared watches
  have state := portUpdate_state c a p event mdiff s
  refine ⟨watches, ?_⟩
  rw [tcDispatch_eq]
  dsimp only
  split
  · exact updated
  · exact updated.trans (tcTransition_spared flush (state ▸ watches))

/-- A port that goes by a foreign master after an event was led to that by its state machine, and
has what it had of foreign masters. -/
theorem portDispatch_spared {event : FsmEvent} {mdiff : Bool}
    (watches : ((portDispatch c a p event mdiff s).ports p).state.watches) :
    (c.machine (s.ports p).state event mdiff).watches ∧
      Spared p s (portDispatch c a p event mdiff s) := by
  have both : (updateOf c a p event mdiff s).next.watches ∧
      Spared p s (portDispatch c a p event mdiff s) := by
    unfold portDispatch at watches ⊢
    split at watches
    · exact bcDispatch_spared watches
    · exact bcDispatch_spared watches
    · exact tcDispatch_spared _ watches
    · exact tcDispatch_spared _ watches
  obtain ⟨starts, spared⟩ := both
  have led := starts
  rw [updateOf_watches starts] at led
  exact ⟨led, spared⟩

end Ports

/-! ## What was read -/

section Reading

variable {c : Clock} {a : Answers} {s t u : ClockState} {p : Nat}

/-- No best foreign master has been read since that was missing. -/
def Unstrayed (s t : ClockState) : Prop := ∀ q, .strayed q ∈ t.log → .strayed q ∈ s.log

/-- Nothing is noted. -/
theorem Unstrayed.of_log (same : t.log = s.log) : Unstrayed s t := by
  intro q strayed
  rwa [same] at strayed

/-- Two steps in which no port strays. -/
theorem Unstrayed.trans (first : Unstrayed s t) (second : Unstrayed t u) : Unstrayed s u :=
  fun q strayed => first q (second q strayed)

/-- Something else was noted. -/
theorem unstrayed_note {noted : Observation} (other : ∀ q, noted ≠ .strayed q) :
    Unstrayed s (s.note noted) := by
  intro q strayed
  rcases List.mem_append.mp strayed with member | last
  · exact member
  · exact absurd (List.mem_singleton.mp last).symm (other q)

/-- What a synchronisation notes is of times. -/
theorem unstrayed_clockSynchronize (ingress origin : Int) (t1From t2From : PortIdentity) :
    Unstrayed s (clockSynchronize c a p ingress origin t1From t2From s).2 := by
  have offset (s : ClockState) : Unstrayed s (tsprocUpdateOffset c a p s) := by
    unfold tsprocUpdateOffset
    dsimp only
    split
    · exact (unstrayed_note fun _ => by simp).trans (Unstrayed.of_log rfl)
    · exact Unstrayed.of_log rfl
  have corrected (s : ClockState) : Unstrayed s (clockUtcCorrect c p ingress s).2 := by
    rcases clockUtcCorrect_cases c p ingress s with same | ⟨_, _, _, same⟩ <;> rw [same]
    · exact Unstrayed.of_log rfl
    · exact (unstrayed_note fun _ => by simp).trans (Unstrayed.of_log rfl)
  have down : Unstrayed s { s with tsproc := tsprocDownTs origin ingress t1From t2From s.tsproc } :=
    Unstrayed.of_log rfl
  have sampled (s : ClockState) : Unstrayed s (servoSample a s).2 := by
    unfold servoSample
    dsimp only
    split <;> exact Unstrayed.of_log rfl
  exact clockSynchronize_keeps down (fun _ => (down.trans (offset _)).trans (corrected _))
    fun _ unstrayed => unstrayed.trans (sampled _)

/-- What a delay notes is of times. -/
theorem unstrayed_clockPathDelay (req rx : Int) (source : PortIdentity) :
    Unstrayed s (clockPathDelay p req rx source s) := by
  unfold clockPathDelay
  dsimp only
  split
  · have began : Unstrayed s { s with tsproc := tsprocUpTs req rx source s.tsproc } :=
      Unstrayed.of_log rfl
    exact (began.trans (unstrayed_note fun _ => by simp)).trans (Unstrayed.of_log rfl)
  · exact Unstrayed.of_log rfl

/-- A record put back into its place. -/
theorem unstrayed_insert (now : Int) (fc : ForeignClock) (m : Stored) :
    Unstrayed s (((fcInsert m (fcPrune now fc s).1 (fcPrune now fc s).2).2).withPort p
      (Port.withForeign (fcInsert m (fcPrune now fc s).1 (fcPrune now fc s).2).1)) := by
  obtain ⟨msgs, same⟩ := fcPrune_state now fc s
  unfold fcInsert
  rw [same]
  exact Unstrayed.of_log rfl

/-- A record is found by its source, not by the pointer to the best one. -/
theorem unstrayed_addForeignMaster (m : Stored) : Unstrayed s (addForeignMaster a p m s).2 := by
  unfold addForeignMaster
  split
  · exact Unstrayed.of_log rfl
  next fc _ => exact unstrayed_insert (a.pruned fc.id) fc m

/-- The pointer to the best record is followed, and it leads to a record. -/
theorem unstrayed_updateCurrentMaster (m : Stored) (found : (s.ports p).bestForeign.isSome) :
    Unstrayed s (updateCurrentMaster c a p m s).2 := by
  unfold updateCurrentMaster
  split
  next missing =>
    rw [missing] at found
    cases found
  next fc _ =>
    split
    · exact unstrayed_addForeignMaster m
    · dsimp only
      generalize began : setTmo p .announceTimer _ = t
      have before : Unstrayed s t := by
        rw [← began]
        split <;> split <;> exact Unstrayed.of_log rfl
      exact before.trans (unstrayed_insert (a.pruned fc.id) fc m)

/-- The pointer is followed only at ports that go by a master. -/
theorem unstrayed_processAnnounce (m : Stored)
    (recorded : (s.ports p).state.watches → (s.ports p).Recorded) :
    Unstrayed s (processAnnounce c a p m s).2 := by
  rw [processAnnounce_eq]
  split
  · have read : Unstrayed s (recordAnnounce c a p m s).2 := by
      unfold recordAnnounce
      split
      next follows =>
        have watches : (s.ports p).state.watches := by
          rcases follows with passive | tracks
          · rw [passive]
            rfl
          · cases state : (s.ports p).state <;> rw [state] at tracks <;> first | rfl | cases tracks
        exact unstrayed_updateCurrentMaster m (recorded watches).bestForeign
      next => exact unstrayed_addForeignMaster m
    exact read.trans (Unstrayed.of_log rfl)
  · exact Unstrayed.of_log rfl

/-- A port that is as it was when the step began. -/
theorem Meets.recorded {before : ClockState} (meets : Meets before s p)
    (recorded : (before.ports p).state.watches → (before.ports p).Recorded) :
    (s.ports p).state.watches → (s.ports p).Recorded := by
  have same := meets.port
  rw [← same] at recorded
  exact recorded

/-- One effect. Only an announce follows the pointer, and nothing that came before it in the step
has changed the port. -/
theorem Effect.unstrayed {g : Guards} (effect : Effect c a g s t)
    (recorded : (∃ msg, g.delivers msg) → (g.before.ports g.here).state.watches →
      (g.before.ports g.here).Recorded) : Unstrayed s t := by
  cases effect with
  | putLast p there =>
    obtain ⟨_, same⟩ := putLast_state p s
    rw [same]
    exact Unstrayed.of_log rfl
  | dropPeerDelay slot p =>
    obtain ⟨_, same⟩ := dropPeerDelay_state slot p s
    rw [same]
    exact Unstrayed.of_log rfl
  | announce m held received type meets =>
    exact unstrayed_processAnnounce m (meets.recorded (recorded ⟨_, received⟩))
  | clearBest =>
    obtain ⟨_, _, same⟩ := clearBest_state g.here s
    rw [same]
    exact Unstrayed.of_log rfl
  | abandon p fault =>
    obtain ⟨_, same⟩ := abandon_state p s
    rw [same]
    exact Unstrayed.of_log rfl
  | pair p last m there same source follows sync fup kinds =>
    exact unstrayed_note fun _ => by simp
  | synchronize ingress origin t1From t2From follows sources meets =>
    exact unstrayed_clockSynchronize _ _ _ _
  | pathDelay req rx source follows parent => exact unstrayed_clockPathDelay _ _ _
  | take q takes same => exact unstrayed_note fun _ => by simp
  | setting setting uds => cases setting <;> exact Unstrayed.of_log rfl
  | _ => exact Unstrayed.of_log rfl

/-- All effects of a step: the one that may stray is known to be sound from the state before the
step. -/
theorem Effects.unstrayed {g : Guards} (effects : Effects c a g s t)
    (recorded : (∃ msg, g.delivers msg) → (g.before.ports g.here).state.watches →
      (g.before.ports g.here).Recorded) : Unstrayed s t := by
  apply effects.keeps (Unstrayed.of_log rfl)
  exact fun _ _ effect before => before.trans (effect.unstrayed recorded)

end Reading

/-! ## Steps -/

/-- What is preserved between two events. -/
structure Tracked (c : Clock) (s : ClockState) : Prop where
  recorded : MastersRecorded s
  active : c.slaveOnly → ∀ p, (s.ports p).state ≠ .passive

section Tracking

variable {c : Clock} {a : Answers} {s t : ClockState} {p : Nat}

/-- States, pointers and records are as before, or there are more records. -/
theorem Tracked.congr (tracked : Tracked c s) (same : ∀ q, (t.ports q).state = (s.ports q).state ∧
    (t.ports q).best = (s.ports q).best ∧ (s.ports q).addresses ⊆ (t.ports q).addresses) :
    Tracked c t where
  recorded := by
    intro q watches
    obtain ⟨state, spared⟩ := same q
    rw [state] at watches
    exact Spared.recorded spared (tracked.recorded q watches)
  active := by
    intro slaveOnly q
    rw [(same q).1]
    exact tracked.active slaveOnly q

/-- A step aside keeps it. -/
theorem Tracked.aside (tracked : Tracked c s) (aside : Aside s t) : Tracked c t :=
  tracked.congr fun q => ⟨(aside q).state, (aside q).best, (aside q).addresses⟩

/-- A step outside the ports keeps it. -/
theorem Tracked.of_ports (tracked : Tracked c s) (same : t.ports = s.ports) : Tracked c t :=
  tracked.aside (Aside.of_ports same)

/-- Only the events that the state decision chooses give a port a foreign master to go by. -/
theorem Tracked.dispatch (tracked : Tracked c s) {event : FsmEvent} (other : ¬Chosen event)
    (mdiff : Bool) : Tracked c (portDispatch c a p event mdiff s) where
  recorded := by
    intro q watches
    by_cases here : q = p
    · subst here
      obtain ⟨led, spared⟩ := portDispatch_spared watches
      rcases machine_watches led with before | chosen
      · exact spared.recorded (tracked.recorded q before)
      · exact absurd chosen other
    · rw [portDispatch_elsewhere here] at watches ⊢
      exact tracked.recorded q watches
  active := by
    intro slaveOnly q
    by_cases here : q = p
    · subst here
      exact portDispatch_unused slaveOnly (Or.inl rfl) (tracked.active slaveOnly q)
    · rw [portDispatch_elsewhere here]
      exact tracked.active slaveOnly q

/-- No descriptor tells a port to go by a master. -/
theorem Raised.not_chosen {event : FsmEvent} (raised : Raised event) : ¬Chosen event := by
  rintro (rfl | rfl)
  · simp [Raised] at raised
  · simp [Raised] at raised

/-- What a descriptor does is a sequence of steps aside and of events that choose no master. -/
theorem Tracked.portEvent (tracked : Tracked c s) (fd : Descriptor) :
    Tracked c (portEvent c a p fd s).2 := by
  have admitted : Admissible c a (fun _ event _ => ¬Chosen event) p fd s := by
    constructor
    · intro t
      simp [Chosen]
    · intro _ q t
      simp [Chosen]
    · intro _ before news after _ t _
      simp [Chosen]
  apply (portEvent_steps admitted).keeps tracked
  · exact fun _ _ aside tracked => tracked.aside aside
  · exact fun _ _ _ other tracked => tracked.dispatch other false

/-- A descriptor and the event that it raises. -/
theorem Tracked.handleDescriptor (tracked : Tracked c s) (fd : Descriptor) :
    Tracked c (handleDescriptor c a p fd s) := by
  have raised := raised_portEvent (c := c) (a := a) (s := s) p fd
  have done : Tracked c (LinuxPtp.portEvent c a p fd s).2 := tracked.portEvent fd
  rw [handleDescriptor_eq]
  dsimp only
  apply Tracked.dispatch _ raised.not_chosen
  split
  · exact done.of_ports rfl
  · exact done

/-- A descriptor of the local socket. -/
theorem Tracked.handleUds (tracked : Tracked c s) (fd : Descriptor) :
    Tracked c (handleUds c a fd s) := by
  have done : Tracked c (LinuxPtp.portEvent c a 0 fd s).2 := tracked.portEvent fd
  unfold LinuxPtp.handleUds
  dsimp only
  split
  · exact done.of_ports rfl
  · exact done

/-- A fault timer is set. -/
theorem Tracked.armFault (tracked : Tracked c s) (p : Nat) : Tracked c (armFault c p s) := by
  apply tracked.congr
  intro q
  obtain ⟨_, same⟩ := armFault_port (c := c) p q s
  rw [same]
  exact ⟨rfl, rfl, List.Subset.refl _⟩

/-- A fault timer is stopped. -/
theorem Tracked.disarmFault (tracked : Tracked c s) (p : Nat) : Tracked c (disarmFault p s) := by
  apply tracked.congr
  intro q
  obtain ⟨_, same⟩ := disarmFault_port p q s
  rw [same]
  exact ⟨rfl, rfl, List.Subset.refl _⟩

/-- A port whose fault timer has expired goes by no master. -/
theorem Tracked.handleFaultTimer (tracked : Tracked c s) (p : Nat) :
    Tracked c (handleFaultTimer c a p s) := by
  unfold LinuxPtp.handleFaultTimer
  dsimp only
  split
  · exact (tracked.disarmFault p).dispatch (by simp [Chosen]) false
  · exact tracked.disarmFault p

/-- The ports are initialised, and go by no master. -/
theorem Tracked.clockStart (tracked : Tracked c s) : Tracked c (clockStart c a s) := by
  unfold LinuxPtp.clockStart
  generalize c.ports ++ [0] = list
  induction list generalizing s with
  | nil => exact tracked
  | cons q rest inductionHypothesis =>
    exact inductionHypothesis (tracked.dispatch (by simp [Chosen]) false)

/-! ## The state decision -/

/-- The best foreign master of a port, if there is one, is one of its foreign masters. -/
def Port.Listed (port : Port) : Prop := ∀ id, port.best = some id → id ∈ port.addresses

/-- A pointer that is set leads to a record, if every pointer does. -/
theorem Port.Listed.recorded {port : Port} (listed : port.Listed) (there : port.best.isSome) :
    port.Recorded := by
  obtain ⟨id, best⟩ := Option.isSome_iff_exists.mp there
  exact (recorded_iff port).mpr ⟨id, best, listed id best⟩

/-- The port points at the record that it has found best. -/
theorem portComputeBest_pointer : ((portComputeBest c a p s).2.ports p).best =
    (portComputeBest c a p s).1.map ForeignClock.id := by
  unfold portComputeBest
  split
  · rw [withPort_same]
    rfl
  · dsimp only
    rw [withPort_same]

/-- So its pointer leads to a record, or is not set. -/
theorem portComputeBest_refers : ((portComputeBest c a p s).2.ports p).Listed := by
  intro id best
  rw [portComputeBest_pointer] at best
  obtain ⟨fc, found, rfl⟩ := Option.map_eq_some_iff.mp best
  rw [portComputeBest_addresses]
  exact portComputeBest_listed found

/-- Ports that are not asked are left alone. -/
theorem electFrom_other {list : List Nat} {q : Nat} (absent : q ∉ list) (best : Option Best)
    (s : ClockState) : (electFrom c a list best s).2.ports q = s.ports q := by
  induction list generalizing best s with
  | nil => rfl
  | cons p rest inductionHypothesis =>
    have differ : q ≠ p := List.ne_of_not_mem_cons absent
    have later : q ∉ rest := List.not_mem_of_not_mem_cons absent
    rw [electFrom_cons, inductionHypothesis later, portComputeBest_other c a differ]

/-- Every port that is asked points at a record or at nothing, by induction on the list of ports. -/
theorem electFrom_refers {list : List Nat} {q : Nat} (distinct : list.Nodup) (member : q ∈ list)
    (best : Option Best) (s : ClockState) : ((electFrom c a list best s).2.ports q).Listed := by
  induction list generalizing best s with
  | nil => cases member
  | cons p rest inductionHypothesis =>
    obtain ⟨absent, others⟩ := List.nodup_cons.mp distinct
    rw [electFrom_cons]
    rcases List.mem_cons.mp member with rfl | later
    · rw [electFrom_other absent]
      exact portComputeBest_refers
    · exact inductionHypothesis others later _ _

/-- The best of the clock is the best of its port. -/
theorem electFrom_pointer {list : List Nat} (distinct : list.Nodup) {best : Option Best}
    {s : ClockState} {b : Best} (elected : (electFrom c a list best s).1 = some b) :
    best = some b ∨
      b.port ∈ list ∧ ((electFrom c a list best s).2.ports b.port).best = some b.id := by
  induction list generalizing best s with
  | nil => exact Or.inl elected
  | cons p rest inductionHypothesis =>
    obtain ⟨absent, others⟩ := List.nodup_cons.mp distinct
    rw [electFrom_cons] at elected ⊢
    rcases inductionHypothesis others elected with kept | ⟨member, points⟩
    · rcases keepBest_cases kept with before | ⟨fc, found, rfl⟩
      · exact Or.inl before
      · refine Or.inr ⟨List.mem_cons_self, ?_⟩
        change ((electFrom c a rest _ _).2.ports p).best = some fc.id
        rw [electFrom_other absent, portComputeBest_pointer, found]
        rfl
    · exact Or.inr ⟨List.mem_cons_of_mem _ member, points⟩

/-- A clock has no port twice. -/
theorem ports_nodup : c.ports.Nodup := List.nodup_range'

/-- What holds while the ports that are left are told what to do. -/
structure Pending (c : Clock) (rest : List Nat) (s : ClockState) : Prop where
  told : ∀ p, p ∉ rest → (s.ports p).state.watches → (s.ports p).Recorded
  listed : ∀ p ∈ rest, (s.ports p).Listed
  best : ∀ b, s.best = some b → b.port ∈ rest → (s.ports b.port).best.isSome
  active : c.slaveOnly → ∀ p, (s.ports p).state ≠ .passive

/-- A step outside the ports leaves what is pending. -/
theorem Pending.of_ports {rest : List Nat} (pending : Pending c rest s)
    (ports : t.ports = s.ports) (best : t.best = s.best) : Pending c rest t := by
  obtain ⟨told, listed, selected, active⟩ := pending
  constructor
  · rw [ports]
    exact told
  · rw [ports]
    exact listed
  · rw [ports, best]
    exact selected
  · rw [ports]
    exact active

/-- After the first loop nothing is left but to tell the ports. -/
theorem decided_pending (tracked : Tracked c s) : Pending c c.ports (decided c a s).2 := by
  obtain ⟨_, _, each, same⟩ := electFrom_state (c := c) (a := a) c.ports none s
  have elected : Pending c c.ports { (electFrom c a c.ports none s).2 with
      best := (electFrom c a c.ports none s).1 } := by
    constructor
    · intro p absent watches
      dsimp only at watches ⊢
      rw [electFrom_other absent] at watches ⊢
      exact tracked.recorded p watches
    · exact fun p member => electFrom_refers ports_nodup member none s
    · intro b selected _
      rcases electFrom_pointer ports_nodup selected with impossible | ⟨_, points⟩
      · cases impossible
      · exact Option.isSome_iff_exists.mpr ⟨b.id, points⟩
    · intro slaveOnly p
      obtain ⟨_, _, here⟩ := each p
      rw [same]
      dsimp only
      rw [here]
      exact tracked.active slaveOnly p
  unfold decided
  rw [adoptBest_eq]
  exact elected.of_ports rfl rfl

/-- A data set is better than none. -/
theorem dscmp_none (dataset : Dataset) : c.dscmp (some dataset) none = aBetter := by
  unfold Clock.dscmp
  split <;> rfl

/-- Without a best foreign master, a port that is not told to listen is told to be a master. -/
theorem bmcStateDecision_alone (alone : (s.ports p).best = none)
    (other : s.best.map Best.port ≠ some p) :
    bmcStateDecision c p s = .listening ∧ (s.ports p).state = .listening ∨
      bmcStateDecision c p s = .grandMaster ∨ bmcStateDecision c p s = .master := by
  have nothing : (s.ports p).bestForeign = none := by
    unfold Port.bestForeign
    rw [alone]
    rfl
  unfold bmcStateDecision
  dsimp only
  rw [nothing, if_neg other]
  simp only [Option.map_none, Option.isNone_none, true_and, dscmp_none]
  split
  next listening => exact Or.inl ⟨listening, listening⟩
  split
  · exact Or.inr (Or.inl rfl)
  split
  · exact Or.inr (Or.inl rfl)
  next worse =>
    split
    next topo =>
      exfalso
      cases selected : s.best with
      | none =>
        rw [selected] at worse
        exact worse (by rw [Option.map_none, dscmp_none]; decide)
      | some best =>
        rw [selected, Option.map_some, dscmp_none] at topo
        cases topo
    next => exact Or.inr (Or.inr rfl)

/-- A port that goes by a foreign master after it was told what to do has it recorded. -/
theorem recommend_recorded {freshBest : Bool} {rest : List Nat} (pending : Pending c (p :: rest) s)
    (watches : ((recommend c a freshBest s p).ports p).state.watches) :
    ((recommend c a freshBest s p).ports p).Recorded := by
  obtain ⟨_, _, _, _, _, _, same⟩ := informed_state (c := c) (bmcStateDecision c p s) s
  have ports : (informed c (bmcStateDecision c p s) s).ports = s.ports := by rw [same]
  rw [recommend_eq] at watches ⊢
  obtain ⟨led, spared⟩ := portDispatch_spared watches
  rw [ports] at led
  apply spared.recorded
  rw [ports]
  apply (pending.listed p List.mem_cons_self).recorded
  by_contra missing
  have alone : (s.ports p).best = none := Option.not_isSome_iff_eq_none.mp missing
  have other : s.best.map Best.port ≠ some p := by
    intro selected
    obtain ⟨b, best, rfl⟩ := Option.map_eq_some_iff.mp selected
    exact missing (pending.best b best List.mem_cons_self)
  rcases bmcStateDecision_alone (c := c) alone other with ⟨told, state⟩ | told | told
  · rw [told, state] at led
    have still := machine_demotes (c := c) .none freshBest .listening
      (Or.inr (Or.inr (Or.inr ⟨rfl, rfl⟩)))
    have listening : c.machine .listening .none freshBest = .listening := by
      unfold Clock.machine
      split <;> rfl
    rw [recommendation, listening] at led
    cases led
  · rw [told, recommendation, machine_promotes (Or.inr rfl) (pending.active · p)] at led
    cases led
  · rw [told, recommendation, machine_promotes (Or.inl rfl) (pending.active · p)] at led
    cases led

/-- A port that is told what to do is not pending any more: it has a record if it was told to go by
a master, and it is not told twice. -/
theorem recommend_pending {freshBest : Bool} {rest : List Nat} (absent : p ∉ rest)
    (pending : Pending c (p :: rest) s) : Pending c rest (recommend c a freshBest s p) := by
  have recorded : ((recommend c a freshBest s p).ports p).state.watches →
      ((recommend c a freshBest s p).ports p).Recorded := recommend_recorded pending
  obtain ⟨_, _, _, _, _, _, same⟩ := informed_state (c := c) (bmcStateDecision c p s) s
  have ports : (informed c (bmcStateDecision c p s) s).ports = s.ports := by rw [same]
  have elsewhere {q : Nat} (differ : q ≠ p) :
      (recommend c a freshBest s p).ports q = s.ports q := by
    rw [recommend_eq, portDispatch_elsewhere differ, ports]
  have best : (recommend c a freshBest s p).best = s.best := by
    obtain ⟨_, _, _, _, _, frame⟩ := (portDispatch_touches c a p
      (recommendation (bmcStateDecision c p s)) freshBest
      (informed c (bmcStateDecision c p s) s)).frame
    rw [recommend_eq, frame, same]
  have apart {q : Nat} (member : q ∈ rest) : q ≠ p := by
    rintro rfl
    exact absent member
  constructor
  · intro q later watches
    by_cases here : q = p
    · subst here
      exact recorded watches
    · rw [elsewhere here] at watches ⊢
      exact pending.told q (by simp [here, later]) watches
  · intro q member
    rw [elsewhere (apart member)]
    exact pending.listed q (List.mem_cons_of_mem _ member)
  · intro b selected member
    rw [elsewhere (apart member)]
    rw [best] at selected
    exact pending.best b selected (List.mem_cons_of_mem _ member)
  · intro slaveOnly q
    by_cases here : q = p
    · subst here
      rw [recommend_eq]
      apply portDispatch_unused slaveOnly (Or.inl rfl)
      rw [ports]
      exact pending.active slaveOnly q
    · rw [elsewhere here]
      exact pending.active slaveOnly q

/-- A state decision: first all pointers are renewed, which makes the ports pending, then each is
told. -/
theorem Tracked.handleDecision (tracked : Tracked c s) : Tracked c (handleDecision c a s) := by
  have walk : ∀ (list : List Nat), list.Nodup → ∀ t, Pending c list t →
      Pending c [] (list.foldl (recommend c a (decided c a s).1) t) := by
    intro list
    induction list with
    | nil => exact fun _ _ pending => pending
    | cons p rest inductionHypothesis =>
      intro distinct t pending
      obtain ⟨absent, others⟩ := List.nodup_cons.mp distinct
      exact inductionHypothesis others _ (recommend_pending absent pending)
  unfold LinuxPtp.handleDecision
  split
  · have told := walk c.ports ports_nodup _ (decided_pending (a := a) tracked)
    rw [← handleStateDecisionEvent_eq] at told
    exact ⟨fun p watches => told.told p List.not_mem_nil watches, told.active⟩
  · exact tracked

end Tracking

/-! ## Runs -/

section Runs

variable {c : Clock} {s : PollState}

/-- One step of the loop, by its kind. -/
theorem pollStep_tracked (tracked : Tracked c s.clock) (step : PollStep) :
    Tracked c (pollStep c s step).clock := by
  cases step with
  | enter p => exact tracked
  | descriptor p fd a =>
    apply pollStep_descriptor (Tracked c) tracked
    · exact fun _ => tracked.handleDescriptor fd
    · exact fun t tracked => tracked.armFault p
  | faultTimer p a => exact tracked.handleFaultTimer p
  | uds fd a => exact tracked.handleUds fd
  | decide a => exact tracked.handleDecision

/-- A step reads no best foreign master that is missing. -/
theorem pollStep_unstrayed (tracked : Tracked c s.clock) (step : PollStep) :
    Unstrayed s.clock (pollStep c s step).clock := by
  have free {a : Answers} {p : Nat} {t u : ClockState} (tracked : Tracked c t)
      (work : Works c a (Guards.free t p) t u) : Unstrayed t u :=
    work.effects.unstrayed fun _ => tracked.recorded p
  cases step with
  | enter p => exact Unstrayed.of_log rfl
  | descriptor p fd a =>
    apply pollStep_descriptor (Unstrayed s.clock) (Unstrayed.of_log rfl)
    · intro _
      exact free tracked (handleDescriptor_works (allowsStep_free s.clock p fd) rfl)
    · exact fun t before => before.trans (Unstrayed.of_log rfl)
  | faultTimer p a =>
    have disarmed : Unstrayed s.clock (disarmFault p s.clock) := Unstrayed.of_log rfl
    exact disarmed.trans (free (tracked.disarmFault p)
      (handleFaultTimer_works (g := Guards.free _ p) rfl fun _ _ => trivial))
  | uds fd a =>
    have allows := allowsStep_free (c := c) (a := a) s.clock 0 fd
    exact free tracked (handleUds_works allows.toAllowsDescriptor rfl rfl)
  | decide a =>
    change Unstrayed s.clock (handleDecision c a s.clock)
    unfold handleDecision
    split
    · have began : Unstrayed s.clock (decided c a s.clock).2 := by
        obtain ⟨_, _, _, _, _, _, _, _, same⟩ := decided_state (c := c) (a := a) s.clock
        rw [same]
        exact Unstrayed.of_log rfl
      have informs (recommended : PortState) (t : ClockState) :
          Unstrayed t (informed c recommended t) := by
        unfold informed
        split
        · exact Unstrayed.of_log rfl
        · unfold clockUpdateSlave
          split
          · exact Unstrayed.of_log rfl
          · dsimp only
            split
            · exact unstrayed_note fun _ => by simp
            · exact (unstrayed_note fun _ => by simp).trans (Unstrayed.of_log rfl)
        · exact Unstrayed.of_log rfl
      rw [handleStateDecisionEvent_eq]
      generalize (decided c a s.clock).2 = t at began ⊢
      induction c.ports generalizing t with
      | nil => exact began
      | cons p rest inductionHypothesis =>
        apply inductionHypothesis
        -- No message is delivered while the ports are told what to do.
        let g : Guards := { Guards.free t p with delivers := fun _ => False }
        have work : Works c a g (informed c (bmcStateDecision c p t) t)
            (recommend c a (decided c a s.clock).1 t p) :=
          recommend_works (fun _ _ => trivial) (fun _ => trivial) (fun _ _ => trivial)
        have told := work.effects.unstrayed fun delivered => delivered.elim fun _ => False.elim
        exact (began.trans (informs _ t)).trans told
    · exact Unstrayed.of_log rfl

/-- At the start no port goes by a master. -/
theorem tracked_start (c : Clock) (start : StartUp) : Tracked c (start.state c).clock := by
  apply Tracked.clockStart
  constructor
  · intro p watches
    cases watches
  · intro _ p passive
    cases passive

/-- At the start nothing is noted. -/
theorem unstrayed_start (c : Clock) (start : StartUp) : NeverStrayed (start.state c).clock := by
  obtain ⟨_, _, _, _, _, same⟩ := clockStart_frame (c := c) (a := start.answers)
    (clockOpen c start.dds start.utcOffset start.timeSource start.realtime)
  intro p strayed
  unfold StartUp.state at strayed
  rw [same] at strayed
  cases strayed

/-- At every moment of a run, every port that is PASSIVE, UNCALIBRATED or SLAVE has its best foreign
master among its foreign masters, and no port has read one that it does not have.

No condition is needed.

Proof: between two events every port that goes by a master has it recorded, and within a state
decision the ports that still have to be told may be without one. Each effect of a handler keeps
this, as records are only added unless a port is initialised, and then it goes by no master. -/
theorem masters_recorded {start : StartUp} {polls : List Poll} {events : List PollStep}
    (moment : events <+: polls.flatMap (Poll.steps c)) :
    MastersRecorded (events.foldl (pollStep c) (start.state c)).clock ∧
      NeverStrayed (events.foldl (pollStep c) (start.state c)).clock := by
  have unconditional : Along (pollStep c) (fun _ _ => True) (start.state c) events :=
    along_of_forall fun _ _ _ => trivial
  have both : Tracked c (events.foldl (pollStep c) (start.state c)).clock ∧
      NeverStrayed (events.foldl (pollStep c) (start.state c)).clock := by
    apply run_keeps (fun s => Tracked c s.clock ∧ NeverStrayed s.clock) moment unconditional
    · exact ⟨tracked_start c start, unstrayed_start c start⟩
    · rintro s step _ _ ⟨tracked, never⟩ _
      exact ⟨pollStep_tracked tracked step,
        fun p strayed => never p (pollStep_unstrayed tracked step p strayed)⟩
  exact ⟨both.1.recorded, both.2⟩

/-- A run in which a port hears of a master and goes by it. -/
theorem masters_recorded_announces :
    MastersRecorded (((List.replicate 2 electingPoll).flatMap (Poll.steps smallClock)).foldl
        (pollStep smallClock) (plainStart.state smallClock)).clock ∧
      NeverStrayed (((List.replicate 2 electingPoll).flatMap (Poll.steps smallClock)).foldl
        (pollStep smallClock) (plainStart.state smallClock)).clock :=
  masters_recorded (List.prefix_refl _)

end Runs

end LinuxPtp
