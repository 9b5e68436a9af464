import LinuxPtp.BestMaster
import LinuxPtp.Effects

/-!
# The effects of an event on a port

What `port_dispatch` does, as a sequence of effects: a port is disabled only for a fault, and comes
to follow a master only if that is recommended.

The state machine is decided case by case once, in `machine_leads`, and everything later refers to
what that lemma says of an event. For each transition there are two facts: it is a sequence of
allowed effects, and it leaves what its event does not concern.
-/

namespace LinuxPtp

open RefPool

/-! ## The state machines -/

/-- An event that puts a port out of service, or one that finds it so without a fault. -/
def Upsets (state : PortState) (event : FsmEvent) : Prop :=
  event = .faultDetected ∨ event = .initializeEvent ∨ event = .powerup ∨
    state = .initializing ∨ state = .disabled

/-- Where an event can lead from a state. -/
structure Leads (state : PortState) (event : FsmEvent) (next : PortState) : Prop where
  tracks : next.tracks → state.tracks ∨ event = .rsSlave
  faulty : next = .faulty → state = .faulty ∨ Upsets state event
  disabled : next = .disabled → state = .disabled ∨ event = .designatedDisabled
  initializing : next = .initializing → state = .faulty ∨ Upsets state event

/-- The two state machines, decided case by case. -/
theorem machine_leads (c : Clock) (state : PortState) (event : FsmEvent) (mdiff : Bool) :
    Leads state event (c.machine state event mdiff) := by
  have both : ∀ machine, machine = ptpFsm ∨ machine = ptpSlaveFsm →
      ((machine state event mdiff).tracks → state.tracks ∨ event = .rsSlave) ∧
      (machine state event mdiff = .faulty → state = .faulty ∨ Upsets state event) ∧
      (machine state event mdiff = .disabled → state = .disabled ∨ event = .designatedDisabled) ∧
      (machine state event mdiff = .initializing → state = .faulty ∨ Upsets state event) := by
    rintro machine (rfl | rfl)
    · cases state <;> cases event <;> cases mdiff <;> simp [ptpFsm, PortState.tracks, Upsets]
    · cases state <;> cases event <;> cases mdiff <;> simp [ptpSlaveFsm, PortState.tracks, Upsets]
  obtain ⟨tracks, faulty, disabled, initializing⟩ := both c.machine (by
    unfold Clock.machine
    split
    · exact Or.inr rfl
    · exact Or.inl rfl)
  constructor
  · exact tracks
  · exact faulty
  · exact disabled
  · exact initializing

/-- An attempt at initialisation ends LISTENING or FAULTY. -/
theorem machine_initializing (c : Clock) (starts : Bool) :
    c.machine .initializing (if starts then .initComplete else .faultDetected) false =
      if starts then .listening else .faulty := by
  unfold Clock.machine
  split <;> cases starts <;> rfl

/-- A fault that is cleared leads to initialisation, in both state machines. -/
theorem machine_faultCleared (c : Clock) : c.machine .faulty .faultCleared false = .initializing := by
  unfold Clock.machine
  split <;> rfl

/-- Where `port_state_update` can lead, and when it disables the port. -/
structure Updates (state : PortState) (event : FsmEvent) (update : Transition) : Prop where
  tracks : update.next.tracks → state.tracks ∨ event = .rsSlave
  out : update.next ≠ state → update.next = .faulty → Upsets state event
  started : update.next ≠ .initializing
  working : update.next ≠ state → update.next = .disabled → event = .designatedDisabled
  disabled : update.disabled → Upsets state event

/-- The facts of one event, carried through the initialisation that a first event or a fault to be
cleared at once brings with it. -/
theorem portStateUpdate_updates (c : Clock) (asap starts : Bool) (state : PortState)
    (event : FsmEvent) (mdiff : Bool) :
    Updates state event (portStateUpdate c.machine asap starts state event mdiff) := by
  have leads := machine_leads c state event mdiff
  -- An attempt at initialisation, made after the first event or after clearing its fault.
  have attempt : (state = .faulty ∨ Upsets state event) → Updates state event
      { next := c.machine .initializing (if starts then .initComplete else .faultDetected) false
        disabled := portIsEnabled state
        initialized := true } := by
    intro reason
    rw [machine_initializing]
    constructor
    · cases starts <;> simp [PortState.tracks]
    · intro differ out
      rcases reason with rfl | upsets
      · cases starts <;> simp_all
      · exact upsets
    · cases starts <;> simp
    · cases starts <;> simp
    · intro enabled
      rcases reason with rfl | upsets
      · cases enabled
      · exact upsets
  unfold portStateUpdate
  by_cases asap' : c.machine state event mdiff = .faulty ∧ asap
  · simp only [asap', and_self, if_true, machine_faultCleared]
    exact attempt (leads.faulty asap'.1)
  · simp only [if_neg asap']
    split
    next initializing =>
      rw [initializing]
      exact attempt (leads.initializing initializing)
    next started =>
      constructor
      · exact leads.tracks
      · intro differ faulty
        rcases leads.faulty faulty with same | upsets
        · exact absurd (faulty.trans same.symm) differ
        · exact upsets
      · exact started
      · intro differ disabled
        rcases leads.disabled disabled with same | event
        · exact absurd (disabled.trans same.symm) differ
        · exact event
      · intro impossible
        cases impossible

/-! ## What is dropped -/

section Dropping

variable {c : Clock} {a : Answers} {g : Guards} {s : ClockState} {p : Nat}

/-- Clearing records changes the pool only. -/
theorem clearRecords_state (records : List ForeignClock) (s : ClockState) :
    ∃ msgs, records.foldl (fun s fc => (fcClear fc s).2) s = { s with msgs := msgs } := by
  induction records generalizing s with
  | nil => exact ⟨s.msgs, rfl⟩
  | cons fc rest inductionHypothesis =>
    obtain ⟨first, same⟩ := fcClear_state fc s
    obtain ⟨second, again⟩ := inductionHypothesis (fcClear fc s).2
    exact ⟨second, again.trans (by rw [same])⟩

/-- The half of a pair is given up if there is one. -/
theorem flushLastSync_works : Works c a g s (flushLastSync p s) := by
  unfold flushLastSync
  split
  next there => exact Works.of_effect (.putLast s p (Or.inl there)) (by
      unfold putLast
      cases (s.ports p).lastSyncfup <;> rfl)
  next => exact Works.refl s

/-- Outstanding requests are dropped one after another. -/
theorem dropDelayReqs_works {items : List Stored} (listed : List.Subperm items (s.ports p).delayReq) :
    Works c a g s (items.foldl (fun s m => dropDelayReq p m s) s) := by
  induction items generalizing s with
  | nil => exact Works.refl s
  | cons m rest inductionHypothesis =>
    have there : m ∈ (s.ports p).delayReq := listed.subset List.mem_cons_self
    have first : Works c a g s (dropDelayReq p m s) := Works.of_effect (.dropDelayReq s p m there) rfl
    apply first.trans
    apply inductionHypothesis
    have left := listed.erase m
    rw [List.erase_cons_head] at left
    unfold dropDelayReq
    rw [withPort_same]
    exact left

/-- All requests of the list are taken off it. -/
theorem flushDelayReq_works : Works c a g s (flushDelayReq p s) := dropDelayReqs_works (List.Subperm.refl _)

/-- A slot is cleared, an effect of its own. -/
theorem dropPeerDelay_works (slot : PeerSlot) : Works c a g s (dropPeerDelay slot p s) := by
  apply Works.of_effect (.dropPeerDelay s slot p)
  unfold dropPeerDelay
  cases (s.ports p).peerDelay slot <;> rfl

/-- All slots are cleared. -/
theorem flushPeerDelay_works : Works c a g s (flushPeerDelay p s) :=
  ((dropPeerDelay_works .req).trans (dropPeerDelay_works .resp)).trans (dropPeerDelay_works .fup)

/-- The foreign masters are given up, for which there must be a fault. -/
theorem abandon_works (fault : g.faults p) : Works c a g s (abandon p s) := by
  apply Works.of_effect (.abandon s p fault)
  unfold abandon freeForeignMasters
  obtain ⟨msgs, same⟩ := clearRecords_state
    ((s.withPort p fun port => { port with best := none }).ports p).foreignMasters
    (s.withPort p fun port => { port with best := none })
  rw [same]
  rfl

/-- The parts of `port_disable`, each of which has its lemmas. -/
theorem portDisable_eq (p : Nat) (s : ClockState) : portDisable p s =
    (abandon p (flushPeerDelay p (flushDelayReq p (flushLastSync p s)))).withRunning p
      fun running => { running with timers := fun _ => false } := rfl

/-- A port is disabled for a fault: it gives up all that it keeps, then its masters, and its timers
are stopped. -/
theorem portDisable_works (fault : g.faults p) : Works c a g s (portDisable p s) := by
  have flushed : Works c a g s (flushPeerDelay p (flushDelayReq p (flushLastSync p s))) :=
    (flushLastSync_works.trans flushDelayReq_works).trans flushPeerDelay_works
  rw [portDisable_eq]
  exact (flushed.trans (abandon_works fault)).trans (Works.running p _)

end Dropping

/-! ## What is left alone -/

/-- The clock is a transparent one. -/
def Clock.relays (c : Clock) : Prop := c.type = .e2e ∨ c.type = .p2p

/-- Only one port changes, and what it keeps of others is left or given up as a whole. -/
structure Touches (c : Clock) (p : Nat) (s t : ClockState) : Prop where
  frame : ∃ msgs asked servoState realtime port, t = { s with
    msgs := msgs, asked := asked, servoState := servoState, realtime := realtime,
    ports := Function.update s.ports p port }
  servo : c.relays → t.servoState = s.servoState ∧ t.realtime = s.realtime
  faultArmed : (t.ports p).faultArmed = (s.ports p).faultArmed
  linkStatus : (t.ports p).linkStatus = (s.ports p).linkStatus
  delayMechanism : (t.ports p).delayMechanism = (s.ports p).delayMechanism
  foreign : (t.ports p).foreignMasters = (s.ports p).foreignMasters ∧
      (t.ports p).best = (s.ports p).best ∨
    (t.ports p).foreignMasters = [] ∧ (t.ports p).best = none
  slot : (t.ports p).syfu = (s.ports p).syfu ∧
      (t.ports p).lastSyncfup = (s.ports p).lastSyncfup ∨ (t.ports p).syfu = .empty

/-- The same with the state of the port. -/
structure Settles (c : Clock) (p : Nat) (s t : ClockState) : Prop extends Touches c p s t where
  state : (t.ports p).state = (s.ports p).state

section Touching

variable {c : Clock} {p : Nat} {s t u : ClockState}

/-- Two steps that touch one port only. -/
theorem Touches.trans (first : Touches c p s t) (second : Touches c p t u) : Touches c p s u where
  frame := by
    obtain ⟨_, _, _, _, _, same⟩ := first.frame
    obtain ⟨msgs, asked, servoState, realtime, port, again⟩ := second.frame
    refine ⟨msgs, asked, servoState, realtime, port, ?_⟩
    rw [again, same]
    simp
  servo := fun relays =>
    ⟨(second.servo relays).1.trans (first.servo relays).1,
      (second.servo relays).2.trans (first.servo relays).2⟩
  faultArmed := second.faultArmed.trans first.faultArmed
  linkStatus := second.linkStatus.trans first.linkStatus
  delayMechanism := second.delayMechanism.trans first.delayMechanism
  foreign := by
    rcases second.foreign with ⟨records, best⟩ | given
    · rw [records, best]
      exact first.foreign
    · exact Or.inr given
  slot := by
    rcases second.slot with ⟨kind, last⟩ | empty
    · rw [kind, last]
      exact first.slot
    · exact Or.inr empty

/-- Two steps that leave the state of the port. -/
theorem Settles.trans (first : Settles c p s t) (second : Settles c p t u) : Settles c p s u :=
  ⟨first.toTouches.trans second.toTouches, second.state.trans first.state⟩

/-- A message that nobody keeps. -/
theorem scratch_state (s : ClockState) (msg : PtpMessage) :
    ∃ msgs, s.scratch msg = { s with msgs := msgs } := by
  refine ⟨(s.scratch msg).msgs, ?_⟩
  have hands : (s.scratch msg).hands = s.hands := by
    change (_ :: s.hands).erase _ = s.hands
    exact List.erase_cons_head ..
  conv_rhs => rw [← hands]
  rfl

/-- Changes elsewhere than in the ports. -/
theorem settles_clock (msgs : Pool PtpMessage) (asked : Nat) (servoState : ServoState)
    (realtime : Bool)
    (servo : c.relays → servoState = s.servoState ∧ realtime = s.realtime) :
    Settles c p s { s with
      msgs := msgs, asked := asked, servoState := servoState, realtime := realtime } := by
  constructor
  · constructor
    · refine ⟨msgs, asked, servoState, realtime, s.ports p, ?_⟩
      rw [Function.update_eq_self]
    · exact servo
    · rfl
    · rfl
    · rfl
    · exact Or.inl ⟨rfl, rfl⟩
    · exact Or.inl ⟨rfl, rfl⟩
  · rfl

/-- Nothing happens. -/
protected theorem Settles.refl : Settles c p s s :=
  settles_clock s.msgs s.asked s.servoState s.realtime fun _ => ⟨rfl, rfl⟩

/-- Changes of the port that leave what counts. -/
theorem settles_withPort {change : Port → Port}
    (same : ∀ port, (change port).state = port.state ∧
      (change port).faultArmed = port.faultArmed ∧ (change port).linkStatus = port.linkStatus ∧
      (change port).delayMechanism = port.delayMechanism ∧
      ((change port).foreignMasters = port.foreignMasters ∧ (change port).best = port.best) ∧
      ((change port).syfu = port.syfu ∧ (change port).lastSyncfup = port.lastSyncfup ∨
        (change port).syfu = .empty)) :
    Settles c p s (s.withPort p change) := by
  obtain ⟨state, armed, link, mechanism, records, slot⟩ := same (s.ports p)
  constructor
  · constructor
    · exact ⟨s.msgs, s.asked, s.servoState, s.realtime, change (s.ports p), rfl⟩
    · exact fun _ => ⟨rfl, rfl⟩
    · rw [withPort_same, armed]
    · rw [withPort_same, link]
    · rw [withPort_same, mechanism]
    · rw [withPort_same]
      exact Or.inl records
    · rw [withPort_same]
      exact slot
  · rw [withPort_same, state]

/-- What a port keeps for its own running. -/
theorem settles_running (change : PortRunning → PortRunning) :
    Settles c p s (s.withRunning p change) := settles_withPort fun _ => by simp

/-- A message is given back, which is no port's concern. -/
theorem settles_put (cell : Nat) : Settles c p s (s.put cell) :=
  settles_clock _ s.asked s.servoState s.realtime fun _ => ⟨rfl, rfl⟩

/-- The half of a pair is given up. -/
theorem settles_flushLastSync : Settles c p s (flushLastSync p s) := by
  unfold flushLastSync
  split
  · unfold putLast
    cases (s.ports p).lastSyncfup with
    | none => exact settles_withPort fun _ => by simp
    | some m => exact (settles_put m.cell).trans (settles_withPort fun _ => by simp)
  · exact Settles.refl

/-- A loop of which every round leaves what counts. -/
theorem Settles.foldl {α : Type} {step : ClockState → α → ClockState}
    (each : ∀ s item, Settles c p s (step s item)) (items : List α) (s : ClockState) :
    Settles c p s (items.foldl step s) := by
  induction items generalizing s with
  | nil => exact Settles.refl
  | cons item rest inductionHypothesis => exact (each s item).trans (inductionHypothesis _)

/-- A request is taken off the list. -/
theorem settles_dropDelayReq (m : Stored) : Settles c p s (dropDelayReq p m s) := by
  unfold dropDelayReq
  exact (settles_put m.cell).trans (settles_withPort fun _ => by simp)

/-- All requests are taken off the list. -/
theorem settles_flushDelayReq : Settles c p s (flushDelayReq p s) :=
  Settles.foldl (fun _ => settles_dropDelayReq) _ s

/-- A slot is cleared. -/
theorem settles_dropPeerDelay (slot : PeerSlot) : Settles c p s (dropPeerDelay slot p s) := by
  unfold dropPeerDelay
  cases (s.ports p).peerDelay slot with
  | none => exact Settles.refl
  | some m => exact (settles_put m.cell).trans (settles_withPort fun _ => by simp)

/-- All slots are cleared. -/
theorem settles_flushPeerDelay : Settles c p s (flushPeerDelay p s) :=
  ((settles_dropPeerDelay .req).trans (settles_dropPeerDelay .resp)).trans
    (settles_dropPeerDelay .fup)

/-- What giving up the foreign masters comes to. -/
theorem abandon_state (p : Nat) (s : ClockState) :
    ∃ msgs, abandon p s = { s with
      msgs := msgs
      ports := Function.update s.ports p
        { s.ports p with foreignMasters := [], best := none } } := by
  obtain ⟨msgs, same⟩ := clearRecords_state (s.ports p).foreignMasters
    (s.withPort p fun port => { port with best := none })
  refine ⟨msgs, ?_⟩
  unfold abandon freeForeignMasters
  rw [withPort_same]
  dsimp only
  rw [same]
  unfold ClockState.withPort
  simp

/-- The foreign masters are given up. -/
theorem settles_abandon : Settles c p s (abandon p s) := by
  obtain ⟨msgs, same⟩ := abandon_state p s
  rw [same]
  constructor
  · constructor
    · exact ⟨msgs, s.asked, s.servoState, s.realtime, _, rfl⟩
    · exact fun _ => ⟨rfl, rfl⟩
    all_goals simp
  · simp

/-- A port is disabled. Its state is changed by the event, not by this. -/
theorem settles_portDisable : Settles c p s (portDisable p s) := by
  rw [portDisable_eq]
  have flushed : Settles c p s (flushPeerDelay p (flushDelayReq p (flushLastSync p s))) :=
    (settles_flushLastSync.trans settles_flushDelayReq).trans settles_flushPeerDelay
  exact (flushed.trans settles_abandon).trans (settles_running _)

/-- A port is initialised. Its state is changed by the event, not by this. -/
theorem settles_portInitialize (starts : Bool) :
    Settles c p s (portInitialize c starts p s) := by
  have typed : Settles c p s (s.withPort p fun port => { port with lastFaultType := .unspecified }) :=
    settles_withPort fun _ => by simp
  unfold portInitialize
  exact typed.trans (settles_running _)

end Touching

/-! ## The dispatch -/

section Dispatching

variable (c : Clock) (a : Answers) (p : Nat) (event : FsmEvent) (mdiff : Bool) (s : ClockState)

/-- What `port_state_update` makes of an event. -/
def updateOf : Transition :=
  portStateUpdate c.machine (clearFaultAsap ((c.setup p).faultInterval (s.ports p).lastFaultType))
    (a.starts p s.asked) (s.ports p).state event mdiff

/-- The attempt at initialisation, as far as one is made. -/
def attempt : ClockState :=
  let update := updateOf c a p event mdiff s
  let t := if update.disabled then portDisable p s.ask else s.ask
  if update.initialized then portInitialize c (a.starts p s.asked) p t else t

/-- `port_state_update` makes its attempt first and then writes the new state, if it is another one. -/
theorem portUpdate_eq : portUpdate c a p event mdiff s =
    if (updateOf c a p event mdiff s).next = (s.ports p).state then
      (false, attempt c a p event mdiff s)
    else
      (true, ((attempt c a p event mdiff s).withPort p fun port =>
        { port with state := (updateOf c a p event mdiff s).next }).scratch
          (c.newMessage p .management)) := rfl

/-- What is known of the update of a port is what is known of its state machine. -/
theorem updateOf_updates : Updates (s.ports p).state event (updateOf c a p event mdiff s) :=
  portStateUpdate_updates ..

/-- The attempt leaves the state, which is written after it. -/
theorem settles_attempt : Settles c p s (attempt c a p event mdiff s) := by
  have asked : Settles c p s s.ask :=
    settles_clock s.msgs _ s.servoState s.realtime fun _ => ⟨rfl, rfl⟩
  have disabled : Settles c p s
      (if (updateOf c a p event mdiff s).disabled then portDisable p s.ask else s.ask) := by
    split
    · exact asked.trans settles_portDisable
    · exact asked
  unfold attempt
  dsimp only
  split
  · exact disabled.trans (settles_portInitialize ..)
  · exact disabled

/-- It is returned whether the state is another one. -/
theorem portUpdate_changed : (portUpdate c a p event mdiff s).1 = true ↔
    (updateOf c a p event mdiff s).next ≠ (s.ports p).state := by
  rw [portUpdate_eq]
  split <;> simp [*]

/-- The state afterwards is that of the update. -/
theorem portUpdate_state : ((portUpdate c a p event mdiff s).2.ports p).state =
    (updateOf c a p event mdiff s).next := by
  rw [portUpdate_eq]
  split
  next still => exact (settles_attempt ..).state.trans still.symm
  next =>
    obtain ⟨msgs, same⟩ := scratch_state ((attempt c a p event mdiff s).withPort p fun port =>
      { port with state := (updateOf c a p event mdiff s).next }) (c.newMessage p .management)
    rw [same]
    simp only [withPort_same]

/-- Only the port itself is written. -/
theorem touches_portUpdate : Touches c p s (portUpdate c a p event mdiff s).2 := by
  have attempted := (settles_attempt c a p event mdiff s).toTouches
  rw [portUpdate_eq]
  split
  · exact attempted
  · obtain ⟨msgs, same⟩ := scratch_state ((attempt c a p event mdiff s).withPort p fun port =>
      { port with state := (updateOf c a p event mdiff s).next }) (c.newMessage p .management)
    rw [same]
    apply attempted.trans
    constructor
    · exact ⟨_, _, _, _, _, rfl⟩
    · exact fun _ => ⟨rfl, rfl⟩
    · simp only [withPort_same]
    · simp only [withPort_same]
    · simp only [withPort_same]
    · left
      simp only [withPort_same, and_self]
    · left
      simp only [withPort_same, and_self]

variable {c a p event mdiff s} {g : Guards}

/-- A port is initialised: what its timers were does not matter. -/
theorem portInitialize_works (starts : Bool) : Works c a g s (portInitialize c starts p s) := by
  have typed : Works c a g s (withFaultType p .unspecified s) :=
    Works.of_effect (.faultType s p .unspecified) rfl
  unfold portInitialize
  exact typed.trans (Works.running p _)

/-- The attempt disables the port only where the event upsets it, and then there is a fault. -/
theorem attempt_works (upsets : Upsets (s.ports p).state event → g.faults p) :
    Works c a g s (attempt c a p event mdiff s) := by
  have disabled : Works c a g s
      (if (updateOf c a p event mdiff s).disabled then portDisable p s.ask else s.ask) := by
    split
    next disabled =>
      have fault := upsets ((updateOf_updates c a p event mdiff s).disabled disabled)
      exact Works.ask.trans (portDisable_works fault)
    next => exact Works.ask
  unfold attempt
  dsimp only
  split
  · exact disabled.trans (portInitialize_works _)
  · exact disabled

/-- An event is put to a port. `designatedDisabled` is left out: no caller puts it. -/
theorem portUpdate_works (known : event ≠ .designatedDisabled)
    (upsets : Upsets (s.ports p).state event → g.faults p)
    (follows : event = .rsSlave → g.follows p) :
    Works c a g s (portUpdate c a p event mdiff s).2 := by
  have attempted : Works c a g s (attempt c a p event mdiff s) := attempt_works upsets
  have updates := updateOf_updates c a p event mdiff s
  rw [portUpdate_eq]
  split
  next => exact attempted
  next differ =>
    have became : Works c a g (attempt c a p event mdiff s)
        ((attempt c a p event mdiff s).withPort p fun port =>
          { port with state := (updateOf c a p event mdiff s).next }) := by
      apply Works.of_effect
      · apply Effect.become
        · exact fun out => upsets (updates.out differ out)
        · exact ⟨updates.started, fun disabled => known (updates.working differ disabled)⟩
        · intro tracks
          rw [(settles_attempt c a p event mdiff s).state]
          exact (updates.tracks tracks).imp_right follows
      · rfl
    exact (attempted.trans became).trans (Works.scratch _)

/-! ### Transitions -/

/-- All timers are cleared. -/
theorem clrTimers_works : Works c a g s (clrTimers p s) :=
  Works.foldl _ (fun fd _ _ => Works.clrTmo p fd) s

/-- The state stays. -/
theorem settles_clrTimers : Settles c p s (clrTimers p s) :=
  Settles.foldl (fun _ _ => settles_running _) _ s

/-- A timer is set. -/
theorem setTmo_settles (fd : Descriptor) : Settles c p s (setTmo p fd s) := settles_running _

/-- A timer is cleared. -/
theorem clrTmo_settles (fd : Descriptor) : Settles c p s (clrTmo p fd s) := settles_running _

/-- A transition to a state in which the port is out of service is for a fault. -/
def Warranted (g : Guards) (p : Nat) (next : PortState) : Prop :=
  next = .faulty ∨ next = .disabled → g.faults p

/-- On the way out of service the port is disabled, which the fault warrants; otherwise timers are
set for the new state. -/
theorem portE2eTransition_works {next : PortState} (fault : Warranted g p next) :
    Works c a g s (portE2eTransition p next s) := by
  have cleared : Works c a g s (clrTmo p .delayTimer (clrTimers p s)) :=
    clrTimers_works.trans (Works.clrTmo p _)
  unfold portE2eTransition
  cases next with
  | initializing => exact cleared
  | faulty => exact cleared.trans (portDisable_works (fault (Or.inl rfl)))
  | disabled => exact cleared.trans (portDisable_works (fault (Or.inr rfl)))
  | listening | passive | preMaster => exact cleared.trans (Works.setTmo p _)
  | master | grandMaster | slave =>
    exact (cleared.trans (Works.setTmo p _)).trans (Works.setTmo p _)
  | uncalibrated =>
    have flushed : Works c a g s
        (flushDelayReq p (flushLastSync p (clrTmo p .delayTimer (clrTimers p s)))) :=
      (cleared.trans flushLastSync_works).trans flushDelayReq_works
    exact (flushed.trans (Works.setTmo p _)).trans (Works.setTmo p _)

/-- The transition leaves the state that was written before it. -/
theorem settles_portE2eTransition (next : PortState) :
    Settles c p s (portE2eTransition p next s) := by
  have cleared : Settles c p s (clrTmo p .delayTimer (clrTimers p s)) :=
    settles_clrTimers.trans (clrTmo_settles _)
  unfold portE2eTransition
  cases next with
  | initializing => exact cleared
  | faulty | disabled => exact cleared.trans settles_portDisable
  | listening | passive | preMaster => exact cleared.trans (setTmo_settles _)
  | master | grandMaster | slave =>
    exact (cleared.trans (setTmo_settles _)).trans (setTmo_settles _)
  | uncalibrated =>
    have flushed : Settles c p s
        (flushDelayReq p (flushLastSync p (clrTmo p .delayTimer (clrTimers p s)))) :=
      (cleared.trans settles_flushLastSync).trans settles_flushDelayReq
    exact (flushed.trans (setTmo_settles _)).trans (setTmo_settles _)

/-- The same transition with the peer to peer mechanism. -/
theorem portP2pTransition_works {next : PortState} (fault : Warranted g p next) :
    Works c a g s (portP2pTransition p next s) := by
  have cleared : Works c a g s (clrTimers p s) := clrTimers_works
  unfold portP2pTransition
  cases next with
  | initializing => exact cleared
  | faulty => exact cleared.trans (portDisable_works (fault (Or.inl rfl)))
  | disabled => exact cleared.trans (portDisable_works (fault (Or.inr rfl)))
  | passive | slave | preMaster => exact cleared.trans (Works.setTmo p _)
  | master | grandMaster | listening =>
    exact (cleared.trans (Works.setTmo p _)).trans (Works.setTmo p _)
  | uncalibrated =>
    have flushed : Works c a g s (flushPeerDelay p (flushLastSync p (clrTimers p s))) :=
      (cleared.trans flushLastSync_works).trans flushPeerDelay_works
    exact flushed.trans (Works.setTmo p _)

/-- The transition leaves the state that was written before it. -/
theorem settles_portP2pTransition (next : PortState) :
    Settles c p s (portP2pTransition p next s) := by
  have cleared : Settles c p s (clrTimers p s) := settles_clrTimers
  unfold portP2pTransition
  cases next with
  | initializing => exact cleared
  | faulty | disabled => exact cleared.trans settles_portDisable
  | passive | slave | preMaster => exact cleared.trans (setTmo_settles _)
  | master | grandMaster | listening =>
    exact (cleared.trans (setTmo_settles _)).trans (setTmo_settles _)
  | uncalibrated =>
    have flushed : Settles c p s (flushPeerDelay p (flushLastSync p (clrTimers p s))) :=
      (cleared.trans settles_flushLastSync).trans settles_flushPeerDelay
    exact flushed.trans (setTmo_settles _)

/-- The transition of a port of a transparent clock. -/
theorem tcTransition_works (flush : Bool) {next : PortState} (fault : Warranted g p next) :
    Works c a g s (tcTransition flush p next s) := by
  have cleared : Works c a g s (clrTimers p s) := clrTimers_works
  unfold tcTransition
  cases next with
  | initializing | master | grandMaster => exact cleared
  | faulty => exact cleared.trans (portDisable_works (fault (Or.inl rfl)))
  | disabled => exact cleared.trans (portDisable_works (fault (Or.inr rfl)))
  | passive | slave | preMaster => exact cleared.trans (Works.setTmo p _)
  | listening => exact (cleared.trans (Works.setTmo p _)).trans (Works.setTmo p _)
  | uncalibrated =>
    cases flush with
    | false => exact cleared.trans (Works.setTmo p _)
    | true =>
      have flushed : Works c a g s (flushDelayReq p (flushLastSync p (clrTimers p s))) :=
        (cleared.trans flushLastSync_works).trans flushDelayReq_works
      exact flushed.trans (Works.setTmo p _)

/-- The transition leaves the state that was written before it. -/
theorem settles_tcTransition (flush : Bool) (next : PortState) :
    Settles c p s (tcTransition flush p next s) := by
  have cleared : Settles c p s (clrTimers p s) := settles_clrTimers
  unfold tcTransition
  cases next with
  | initializing | master | grandMaster => exact cleared
  | faulty | disabled => exact cleared.trans settles_portDisable
  | passive | slave | preMaster => exact cleared.trans (setTmo_settles _)
  | listening => exact (cleared.trans (setTmo_settles _)).trans (setTmo_settles _)
  | uncalibrated =>
    cases flush with
    | false => exact cleared.trans (setTmo_settles _)
    | true =>
      have flushed : Settles c p s (flushDelayReq p (flushLastSync p (clrTimers p s))) :=
        (cleared.trans settles_flushLastSync).trans settles_flushDelayReq
      exact flushed.trans (setTmo_settles _)

/-! ### Events -/

/-- After a change of its state a port is out of service for a fault only. -/
theorem warranted_of_changed (known : event ≠ .designatedDisabled)
    (upsets : Upsets (s.ports p).state event → g.faults p)
    (changed : (portUpdate c a p event mdiff s).1 = true) :
    Warranted g p ((portUpdate c a p event mdiff s).2.ports p).state := by
  intro out
  rw [portUpdate_state] at out
  have updates := updateOf_updates c a p event mdiff s
  have differ := (portUpdate_changed ..).mp changed
  rcases out with faulty | disabled
  · exact upsets (updates.out differ faulty)
  · exact absurd (updates.working differ disabled) known

/-- The update of the state, and the transition of the delay mechanism if it is another one. -/
theorem bcTransition_eq : bcTransition c a p event mdiff s =
    let updated := portUpdate c a p event mdiff s
    if !updated.1 then (false, updated.2)
    else if (updated.2.ports p).delayMechanism = .p2p then
      (true, portP2pTransition p (updated.2.ports p).state updated.2)
    else (true, portE2eTransition p (updated.2.ports p).state updated.2) := rfl

/-- The transition, and for a port that becomes UNCALIBRATED the switch of the physical clock, which
may be another fault. -/
theorem bcDispatch_eq : bcDispatch c a p event mdiff s =
    let moved := bcTransition c a p event mdiff s
    if moved.1 && (c.setup p).jbod && (moved.2.ports p).state = .uncalibrated then
      let switched := clockSwitchPhc a p moved.2
      if switched.1 then switched.2 else
        (bcTransition c a p .faultDetected false (withFaultType p .switchPhc switched.2)).2
    else moved.2 := rfl

/-- The update of the state, and the transition of a transparent clock. -/
theorem tcDispatch_eq (flush : Bool) : tcDispatch c a flush p event mdiff s =
    let updated := portUpdate c a p event mdiff s
    if !updated.1 || p = 0 then updated.2
    else tcTransition flush p (updated.2.ports p).state updated.2 := rfl

/-- An event is put to a port of an ordinary or boundary clock, without the switch of the physical
clock. -/
theorem bcTransition_works (known : event ≠ .designatedDisabled)
    (upsets : Upsets (s.ports p).state event → g.faults p)
    (follows : event = .rsSlave → g.follows p) :
    Works c a g s (bcTransition c a p event mdiff s).2 := by
  have updated : Works c a g s (portUpdate c a p event mdiff s).2 :=
    portUpdate_works known upsets follows
  rw [bcTransition_eq]
  dsimp only
  split
  next => exact updated
  next changed =>
    have warranted := warranted_of_changed known upsets (by simpa using changed)
    split
    · exact updated.trans (portP2pTransition_works warranted)
    · exact updated.trans (portE2eTransition_works warranted)

/-- Only the port itself is written. -/
theorem touches_bcTransition : Touches c p s (bcTransition c a p event mdiff s).2 := by
  have updated := touches_portUpdate c a p event mdiff s
  rw [bcTransition_eq]
  dsimp only
  split
  · exact updated
  · split
    · exact updated.trans (settles_portP2pTransition _).toTouches
    · exact updated.trans (settles_portE2eTransition _).toTouches

/-- The state afterwards is that of the update. -/
theorem bcTransition_state : ((bcTransition c a p event mdiff s).2.ports p).state =
    (updateOf c a p event mdiff s).next := by
  have updated := portUpdate_state c a p event mdiff s
  rw [bcTransition_eq]
  dsimp only
  split
  · exact updated
  · split
    · exact (settles_portP2pTransition (c := c) _).state.trans updated
    · exact (settles_portE2eTransition (c := c) _).state.trans updated

/-- It is returned whether the state is another one. -/
theorem bcTransition_changed :
    (bcTransition c a p event mdiff s).1 = (portUpdate c a p event mdiff s).1 := by
  rw [bcTransition_eq]
  dsimp only
  split
  next still => simpa using still.symm
  next changed =>
    have changed : (portUpdate c a p event mdiff s).1 = true := by simpa using changed
    split
    · exact changed.symm
    · exact changed.symm

/-- Another physical clock unlocks the servo; that is an effect of its own. -/
theorem clockSwitchPhc_works : Works c a g s (clockSwitchPhc a p s).2 := by
  unfold clockSwitchPhc
  split
  · exact Works.ask.trans (Works.of_effect (.switched s.ask) rfl)
  · exact Works.ask

/-- The switch writes no port. Transparent clocks are left out, which do not switch. -/
theorem settles_clockSwitchPhc (fixed : ¬c.relays) : Settles c p s (clockSwitchPhc a p s).2 := by
  unfold clockSwitchPhc
  split
  · exact settles_clock _ _ _ _ fun relays => absurd relays fixed
  · exact settles_clock _ _ _ _ fun relays => absurd relays fixed

/-- A switch that failed was answered so. -/
theorem switches_of_failed (failed : ¬(clockSwitchPhc a p s).1 = true) :
    ∃ tick, a.switches p tick = false := by
  unfold clockSwitchPhc at failed
  split at failed
  next => exact absurd rfl failed
  next refused => exact ⟨s.asked, by simpa using refused⟩

/-- The type of the latest fault is written down. -/
theorem withFaultType_works (type : FaultType) : Works c a g s (withFaultType p type s) :=
  Works.of_effect (.faultType s p type) rfl

/-- The type of the latest fault is not the state. -/
theorem settles_withFaultType (type : FaultType) : Settles c p s (withFaultType p type s) :=
  settles_withPort fun _ => by simp

/-- An event is put to a port of an ordinary or boundary clock. Where the switch of the physical
clock fails there is another fault, which must be allowed as well. -/
theorem bcDispatch_works (known : event ≠ .designatedDisabled)
    (upsets : Upsets (s.ports p).state event → g.faults p)
    (follows : event = .rsSlave → g.follows p)
    (switches : (∃ tick, a.switches p tick = false) →
      (updateOf c a p event mdiff s).next = .uncalibrated →
      (updateOf c a p event mdiff s).next ≠ (s.ports p).state → g.faults p) :
    Works c a g s (bcDispatch c a p event mdiff s) := by
  have moved : Works c a g s (bcTransition c a p event mdiff s).2 :=
    bcTransition_works known upsets follows
  rw [bcDispatch_eq]
  dsimp only
  split
  next condition =>
    split
    next => exact moved.trans clockSwitchPhc_works
    next failed =>
      simp only [Bool.and_eq_true, decide_eq_true_eq, bcTransition_changed, bcTransition_state,
        portUpdate_changed] at condition
      have fault := switches (switches_of_failed failed) condition.2 condition.1.1
      have faulted : Works c a g s
          (withFaultType p .switchPhc (clockSwitchPhc a p (bcTransition c a p event mdiff s).2).2) :=
        (moved.trans clockSwitchPhc_works).trans (withFaultType_works .switchPhc)
      exact faulted.trans (bcTransition_works nofun (fun _ => fault) nofun)
  next => exact moved

/-- Only the port itself is written. -/
theorem touches_bcDispatch (fixed : ¬c.relays) :
    Touches c p s (bcDispatch c a p event mdiff s) := by
  have moved : Touches c p s (bcTransition c a p event mdiff s).2 := touches_bcTransition
  rw [bcDispatch_eq]
  dsimp only
  split
  · split
    · exact moved.trans (settles_clockSwitchPhc fixed).toTouches
    · have faulted : Touches c p s
          (withFaultType p .switchPhc (clockSwitchPhc a p (bcTransition c a p event mdiff s).2).2) :=
        (moved.trans (settles_clockSwitchPhc fixed).toTouches).trans
          (settles_withFaultType .switchPhc).toTouches
      exact faulted.trans touches_bcTransition
  · exact moved

/-- A fault of a port that is UNCALIBRATED. -/
theorem updateOf_faultDetected (uncalibrated : (s.ports p).state = .uncalibrated) :
    (updateOf c a p .faultDetected false s).next = .faulty ∨
      (updateOf c a p .faultDetected false s).next = .listening := by
  have faulty : c.machine .uncalibrated .faultDetected false = .faulty := by
    unfold Clock.machine
    split <;> rfl
  unfold updateOf portStateUpdate
  rw [uncalibrated, faulty]
  cases clearFaultAsap ((c.setup p).faultInterval (s.ports p).lastFaultType) with
  | false => exact Or.inl rfl
  | true =>
    simp only [and_self, if_true, machine_faultCleared, machine_initializing]
    cases a.starts p s.asked
    · exact Or.inl rfl
    · exact Or.inr rfl

/-- The state afterwards is that of the update, unless the switch failed. Then the port is faulty,
or listens again after a fault that is cleared at once. -/
theorem bcDispatch_state (fixed : ¬c.relays) :
    ((bcDispatch c a p event mdiff s).ports p).state = (updateOf c a p event mdiff s).next ∨
      (∃ tick, a.switches p tick = false) ∧
        (((bcDispatch c a p event mdiff s).ports p).state = .faulty ∨
          ((bcDispatch c a p event mdiff s).ports p).state = .listening) := by
  have moved : ((bcTransition c a p event mdiff s).2.ports p).state =
      (updateOf c a p event mdiff s).next := bcTransition_state
  rw [bcDispatch_eq]
  dsimp only
  split
  next condition =>
    split
    next => exact Or.inl ((settles_clockSwitchPhc fixed).state.trans moved)
    next failed =>
      right
      rw [bcTransition_state]
      constructor
      · exact switches_of_failed failed
      · apply updateOf_faultDetected
        have uncalibrated : ((bcTransition c a p event mdiff s).2.ports p).state = .uncalibrated := by
          simp only [Bool.and_eq_true, decide_eq_true_eq] at condition
          exact condition.2
        exact ((settles_withFaultType (c := c) _).state.trans
          (settles_clockSwitchPhc fixed).state).trans uncalibrated
  next => exact Or.inl moved

/-- An event is put to a port of a transparent clock. -/
theorem tcDispatch_works (flush : Bool) (known : event ≠ .designatedDisabled)
    (upsets : Upsets (s.ports p).state event → g.faults p)
    (follows : event = .rsSlave → g.follows p) :
    Works c a g s (tcDispatch c a flush p event mdiff s) := by
  have updated : Works c a g s (portUpdate c a p event mdiff s).2 :=
    portUpdate_works known upsets follows
  rw [tcDispatch_eq]
  dsimp only
  split
  next => exact updated
  next changed =>
    simp only [Bool.or_eq_true, Bool.not_eq_true', decide_eq_true_eq, not_or] at changed
    have warranted := warranted_of_changed known upsets (by simpa using changed.1)
    exact updated.trans (tcTransition_works flush warranted)

/-- Only the port itself is written. -/
theorem touches_tcDispatch (flush : Bool) : Touches c p s (tcDispatch c a flush p event mdiff s) := by
  have updated := touches_portUpdate c a p event mdiff s
  rw [tcDispatch_eq]
  dsimp only
  split
  · exact updated
  · exact updated.trans (settles_tcTransition flush _).toTouches

/-- The state afterwards is that of the update. -/
theorem tcDispatch_state (flush : Bool) : ((tcDispatch c a flush p event mdiff s).ports p).state =
    (updateOf c a p event mdiff s).next := by
  have updated := portUpdate_state c a p event mdiff s
  rw [tcDispatch_eq]
  dsimp only
  split
  · exact updated
  · exact (settles_tcTransition (c := c) flush _).state.trans updated

variable (c a p event mdiff s)

/-- `port_dispatch` as a sequence of effects. -/
theorem portDispatch_works (known : event ≠ .designatedDisabled)
    (upsets : Upsets (s.ports p).state event → g.faults p)
    (follows : event = .rsSlave → g.follows p)
    (switches : (∃ tick, a.switches p tick = false) →
      (updateOf c a p event mdiff s).next = .uncalibrated →
      (updateOf c a p event mdiff s).next ≠ (s.ports p).state → g.faults p) :
    Works c a g s (portDispatch c a p event mdiff s) := by
  unfold portDispatch
  split
  · exact bcDispatch_works known upsets follows switches
  · exact bcDispatch_works known upsets follows switches
  · exact tcDispatch_works _ known upsets follows
  · exact tcDispatch_works _ known upsets follows

/-- What `port_dispatch` leaves alone. -/
theorem portDispatch_touches : Touches c p s (portDispatch c a p event mdiff s) := by
  unfold portDispatch
  split
  next type => exact touches_bcDispatch (by simp [Clock.relays, type])
  next type => exact touches_bcDispatch (by simp [Clock.relays, type])
  · exact touches_tcDispatch _
  · exact touches_tcDispatch _

/-- The state in which `port_dispatch` leaves the port. -/
theorem portDispatch_state :
    ((portDispatch c a p event mdiff s).ports p).state = (updateOf c a p event mdiff s).next ∨
      (∃ tick, a.switches p tick = false) ∧
        (((portDispatch c a p event mdiff s).ports p).state = .faulty ∨
          ((portDispatch c a p event mdiff s).ports p).state = .listening) := by
  unfold portDispatch
  split
  next type => exact bcDispatch_state (by simp [Clock.relays, type])
  next type => exact bcDispatch_state (by simp [Clock.relays, type])
  · exact Or.inl (tcDispatch_state _)
  · exact Or.inl (tcDispatch_state _)

end Dispatching

end LinuxPtp
