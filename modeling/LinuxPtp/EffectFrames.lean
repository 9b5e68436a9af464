import LinuxPtp.HandlerEffects

/-!
# What effects leave alone

No effect changes what the state decision alone may change, and each kind of effect changes
little of one port. An announce is the only effect that changes what is kept of the parent.

For each effect it is written down which fields it can change, first of the clock and then of a
port. A later invariant that depends on other fields only is kept without looking at the effect.
-/

namespace LinuxPtp

open RefPool

/-! ## Records of foreign masters -/

section Records

variable {c : Clock} {a : Answers} {s t : ClockState} {p : Nat}

/-- What an announce may change. -/
def Announced (p : Nat) (s t : ClockState) : Prop :=
  ∃ msgs nextForeign tds path log heard reported foreignMasters running, t = { s with
    msgs := msgs, nextForeign := nextForeign, tds := tds, path := path, log := log,
    heard := heard, reported := reported,
    ports := Function.update s.ports p
      { s.ports p with foreignMasters := foreignMasters, running := running } }

/-- An announce need not change its port. -/
theorem announced_clock (log : List Observation)
    (heard : Nat → PortIdentity → Option PtpMessage) (reported : Nat → Bool) :
    Announced p s { s with log := log, heard := heard, reported := reported } := by
  refine ⟨s.msgs, s.nextForeign, s.tds, s.path, log, heard, reported, (s.ports p).foreignMasters,
    (s.ports p).running, ?_⟩
  rw [Function.update_eq_self]

/-- Nothing is announced. -/
protected theorem Announced.refl : Announced p s s := announced_clock s.log s.heard s.reported

/-- Two announces one after the other. -/
theorem Announced.trans {u : ClockState} (first : Announced p s t) (second : Announced p t u) :
    Announced p s u := by
  obtain ⟨_, _, _, _, _, _, _, _, _, rfl⟩ := first
  obtain ⟨msgs, nextForeign, tds, path, log, heard, reported, foreignMasters, running, rfl⟩ := second
  exact ⟨msgs, nextForeign, tds, path, log, heard, reported, foreignMasters, running, by simp⟩

/-- A record that is pruned, extended and put back. -/
theorem announced_insert (now : Int) (fc : ForeignClock) (m : Stored) (s : ClockState) :
    Announced p s (((fcInsert m (fcPrune now fc s).1 (fcPrune now fc s).2).2).withPort p
      (Port.withForeign (fcInsert m (fcPrune now fc s).1 (fcPrune now fc s).2).1)) := by
  obtain ⟨msgs, same⟩ := fcPrune_state now fc s
  unfold fcInsert
  rw [same]
  exact ⟨_, s.nextForeign, s.tds, s.path, s.log, s.heard, s.reported, _, _, rfl⟩

/-- An announce changes the records of the port and nothing else. -/
theorem announced_addForeignMaster (m : Stored) :
    Announced p s (addForeignMaster a p m s).2 := by
  unfold addForeignMaster
  split
  · exact ⟨s.msgs, _, s.tds, s.path, s.log, s.heard, s.reported, _, _, rfl⟩
  next fc _ => exact announced_insert (a.pruned fc.id) fc m s

/-- The same for an announce of the best master. -/
theorem announced_updateCurrentMaster (m : Stored) :
    Announced p s (updateCurrentMaster c a p m s).2 := by
  unfold updateCurrentMaster
  split
  next => exact announced_clock _ s.heard s.reported
  next fc _ =>
    split
    · exact announced_addForeignMaster m
    · dsimp only
      generalize began : setTmo p .announceTimer _ = t
      have announced : Announced p s t := by
        rw [← began]
        split <;> split <;>
          exact ⟨s.msgs, s.nextForeign, _, _, s.log, s.heard, s.reported,
            (s.ports p).foreignMasters, _, rfl⟩
      exact announced.trans (announced_insert (a.pruned fc.id) fc m t)

/-- A port accepts an announce. -/
def acceptsAnnounce (p : Nat) (m : PtpMessage) (s : ClockState) : Bool :=
  m.announce.stepsRemoved < 255 && portIsEnabled (s.ports p).state

/-- What becomes of the records when an announce is accepted. -/
def recordAnnounce (c : Clock) (a : Answers) (p : Nat) (m : Stored) (s : ClockState) :
    Bool × ClockState :=
  if (s.ports p).state = .passive ∨ (s.ports p).state.tracks then updateCurrentMaster c a p m s
  else addForeignMaster a p m s

/-- An announce is recorded if it is accepted, and is heard then. -/
theorem processAnnounce_eq (p : Nat) (m : Stored) (s : ClockState) : processAnnounce c a p m s =
    if acceptsAnnounce p m.msg s then
      ((recordAnnounce c a p m s).1,
        (recordAnnounce c a p m s).2.hear p m.msg (recordAnnounce c a p m s).1)
    else (false, s) := by
  have far : m.msg.announce.stepsRemoved ≥ 255 ↔ ¬m.msg.announce.stepsRemoved < 255 :=
    UInt16.not_lt.symm
  unfold processAnnounce acceptsAnnounce recordAnnounce
  by_cases near : m.msg.announce.stepsRemoved < 255
  · rw [if_neg (far.not.mpr (not_not.mpr near))]
    cases (s.ports p).state <;> simp [near, portIsEnabled, PortState.tracks]
  · rw [if_pos (far.mpr near)]
    simp [near]

/-- What is heard is noted. -/
theorem announced_hear (m : PtpMessage) (report : Bool) : Announced p s (s.hear p m report) :=
  announced_clock s.log _ _

/-- So handling an announce changes what an announce may change. -/
theorem announced_processAnnounce (m : Stored) : Announced p s (processAnnounce c a p m s).2 := by
  unfold processAnnounce
  split
  · exact Announced.refl
  split
  · exact Announced.refl
  · exact Announced.refl
  · exact Announced.refl
  all_goals first
    | exact (announced_addForeignMaster m).trans (announced_hear m.msg _)
    | exact (announced_updateCurrentMaster m).trans (announced_hear m.msg _)

/-- What clearing the best foreign master changes. -/
theorem clearBest_state (p : Nat) (s : ClockState) :
    ∃ msgs foreignMasters, clearBest p s = { s with
      msgs := msgs
      ports := Function.update s.ports p { s.ports p with foreignMasters := foreignMasters } } := by
  unfold clearBest
  split
  next =>
    refine ⟨s.msgs, (s.ports p).foreignMasters, ?_⟩
    rw [Function.update_eq_self]
  next fc _ =>
    obtain ⟨msgs, same⟩ := fcClear_state fc s
    dsimp only
    rw [same]
    exact ⟨msgs, _, rfl⟩

/-- What is changed when the half of a pair is given back. -/
theorem putLast_state (p : Nat) (s : ClockState) :
    ∃ msgs, putLast p s = { s with
      msgs := msgs, ports := Function.update s.ports p { s.ports p with syfu := .empty } } := by
  unfold putLast
  dsimp only
  split
  · exact ⟨s.msgs, rfl⟩
  · exact ⟨_, rfl⟩

/-- What is changed when a slot is cleared. -/
theorem dropPeerDelay_state (slot : PeerSlot) (p : Nat) (s : ClockState) :
    ∃ msgs, dropPeerDelay slot p s = { s with
      msgs := msgs
      ports := Function.update s.ports p
        { s.ports p with peerDelay := Function.update (s.ports p).peerDelay slot none } } := by
  unfold dropPeerDelay
  split
  next nothing =>
    refine ⟨s.msgs, ?_⟩
    rw [← nothing, Function.update_eq_self, Function.update_eq_self]
  next m _ => exact ⟨_, rfl⟩

end Records

/-! ## Records keep their addresses -/

section Addresses

variable {c : Clock} {a : Answers} {s : ClockState}

/-- The addresses of the records of a port. -/
def Port.addresses (port : Port) : List Nat := port.foreignMasters.map ForeignClock.id

/-- A record is written in place, so the addresses stay. -/
theorem withForeign_addresses (fc : ForeignClock) (port : Port) :
    (port.withForeign fc).addresses = port.addresses := by
  unfold Port.addresses Port.withForeign
  rw [List.map_map]
  apply List.map_congr_left
  intro other _
  dsimp only [Function.comp_apply]
  split
  next same => exact same.symm
  next => rfl

/-- A record keeps its address when old announces are taken off it. -/
theorem fcPrune_id (now : Int) (fc : ForeignClock) (s : ClockState) :
    (fcPrune now fc s).1.id = fc.id := by
  rw [fcPrune_record]
  rfl

/-- Pruning and extending a record leaves the addresses of its port. -/
theorem insert_addresses (now : Int) (fc : ForeignClock) (m : Stored) (p q : Nat)
    (s : ClockState) :
    ((((fcInsert m (fcPrune now fc s).1 (fcPrune now fc s).2).2).withPort p
      (Port.withForeign (fcInsert m (fcPrune now fc s).1 (fcPrune now fc s).2).1)).ports
        q).addresses = (s.ports q).addresses := by
  obtain ⟨msgs, same⟩ := fcPrune_state now fc s
  unfold fcInsert
  rw [same]
  by_cases here : q = p
  · subst here
    rw [withPort_same]
    exact withForeign_addresses ..
  · rw [withPort_other here]
    rfl

/-- Records are added and none is taken away. -/
theorem addForeignMaster_addresses (p q : Nat) (m : Stored) (s : ClockState) :
    (s.ports q).addresses ⊆ ((addForeignMaster a p m s).2.ports q).addresses := by
  unfold addForeignMaster
  split
  next =>
    by_cases here : q = p
    · subst here
      unfold newForeignMaster
      dsimp only
      rw [withPort_same]
      exact List.subset_cons_self ..
    · unfold newForeignMaster
      dsimp only
      rw [withPort_other here]
      exact List.Subset.refl _
  next fc _ =>
    have same := insert_addresses (a.pruned fc.id) fc m p q s
    exact fun id member => same ▸ member

/-- The record of the best master is written in place. -/
theorem updateCurrentMaster_addresses (p q : Nat) (m : Stored) (s : ClockState) :
    (s.ports q).addresses ⊆ ((updateCurrentMaster c a p m s).2.ports q).addresses := by
  unfold updateCurrentMaster
  split
  · exact List.Subset.refl _
  next fc _ =>
    split
    · exact addForeignMaster_addresses p q m s
    · dsimp only
      generalize began : setTmo p .announceTimer _ = t
      have before : (t.ports q).addresses = (s.ports q).addresses := by
        rw [← began]
        unfold setTmo ClockState.withRunning
        by_cases here : q = p
        · subst here
          rw [withPort_same]
          split <;> split <;> rfl
        · rw [withPort_other here]
          split <;> split <;> rfl
      have same := insert_addresses (a.pruned fc.id) fc m p q t
      intro id member
      rw [← before, ← same] at member
      exact member

/-- So handling an announce takes no record away. -/
theorem processAnnounce_addresses (p q : Nat) (m : Stored) (s : ClockState) :
    (s.ports q).addresses ⊆ ((processAnnounce c a p m s).2.ports q).addresses := by
  unfold processAnnounce
  split
  · exact List.Subset.refl _
  split
  · exact List.Subset.refl _
  · exact List.Subset.refl _
  · exact List.Subset.refl _
  all_goals first
    | exact addForeignMaster_addresses p q m s
    | exact updateCurrentMaster_addresses p q m s

/-- Clearing the best record takes none away. -/
theorem clearBest_addresses (p q : Nat) (s : ClockState) :
    ((clearBest p s).ports q).addresses = (s.ports q).addresses := by
  unfold clearBest
  split
  · rfl
  next fc _ =>
    obtain ⟨msgs, same⟩ := fcClear_state fc s
    dsimp only
    rw [same]
    by_cases here : q = p
    · subst here
      rw [withPort_same]
      exact withForeign_addresses ..
    · rw [withPort_other here]

end Addresses

/-! ## Effects -/

section Effects

variable {c : Clock} {a : Answers} {g : Guards} {s t : ClockState}

/-- What the state decision alone may change. -/
structure Undecided (s t : ClockState) : Prop where
  best : t.best = s.best
  bestId : t.bestId = s.bestId
  stepsRemoved : t.stepsRemoved = s.stepsRemoved
  parent : t.parent = s.parent
  used : t.used = s.used

/-- No effect of a descriptor changes what a state decision decides. -/
theorem Effect.undecided (effect : Effect c a g s t) : Undecided s t := by
  cases effect with
  | putLast p there =>
    obtain ⟨_, same⟩ := putLast_state p s
    rw [same]
    constructor <;> rfl
  | dropPeerDelay slot p =>
    obtain ⟨_, same⟩ := dropPeerDelay_state slot p s
    rw [same]
    constructor <;> rfl
  | announce m held received type meets =>
    obtain ⟨_, _, _, _, _, _, _, _, _, same⟩ := announced_processAnnounce (c := c) (a := a) (s := s)
      (p := g.here) m
    rw [same]
    constructor <;> rfl
  | clearBest =>
    obtain ⟨_, _, same⟩ := clearBest_state g.here s
    rw [same]
    constructor <;> rfl
  | abandon p fault =>
    obtain ⟨_, same⟩ := abandon_state p s
    rw [same]
    constructor <;> rfl
  | synchronize ingress origin t1From t2From follows sources meets =>
    obtain ⟨_, _, _, _, _, same⟩ := timed_clockSynchronize (c := c) (a := a) (s := s) g.here ingress
      origin t1From t2From
    rw [same]
    constructor <;> rfl
  | pathDelay req rx source follows parent =>
    obtain ⟨_, _, _, _, _, same⟩ := timed_clockPathDelay (s := s) g.here req rx source
    rw [same]
    constructor <;> rfl
  | setting setting uds => cases setting <;> constructor <;> rfl
  | _ => constructor <;> rfl

/-- A change of the state of a port that the guards allow. -/
structure Moves (g : Guards) (q : Nat) (old next : PortState) : Prop where
  fault : next = .faulty → g.faults q
  working : next ≠ .initializing ∧ next ≠ .disabled
  follows : next.tracks → old.tracks ∨ g.follows q

/-- What an effect can do to a port. -/
structure PortFrame (g : Guards) (q : Nat) (old new : Port) : Prop where
  state : new.state = old.state ∨ Moves g q old.state new.state
  faultArmed : new.faultArmed = old.faultArmed
  linkStatus : q ≠ g.here → new.linkStatus = old.linkStatus
  delayMechanism : new.delayMechanism = old.delayMechanism ∨
    old.delayMechanism = .auto ∧ new.delayMechanism = .p2p
  best : new.best = old.best ∨ g.faults q ∧ new.best = none
  foreign : new.foreignMasters = old.foreignMasters ∨
    q = g.here ∧ old.addresses ⊆ new.addresses ∨ g.faults q ∧ new.foreignMasters = []

/-- Changes that are of no account here. -/
theorem PortFrame.minor {q : Nat} {old : Port} (running : PortRunning) (syfu : SyfuState)
    (lastSyncfup : Option Stored) (delayReq : List Stored) (peerDelay : PeerSlot → Option Stored)
    (lastFaultType : FaultType) :
    PortFrame g q old { old with
      running := running, syfu := syfu, lastSyncfup := lastSyncfup, delayReq := delayReq
      peerDelay := peerDelay, lastFaultType := lastFaultType } := by
  constructor <;> simp

/-- A port that is left alone. -/
theorem PortFrame.refl {q : Nat} {old : Port} : PortFrame g q old old :=
  PortFrame.minor old.running old.syfu old.lastSyncfup old.delayReq old.peerDelay old.lastFaultType

/-- Only one port is concerned. -/
theorem PortFrame.update {ports : Nat → Port} {p : Nat} {new : Port}
    (frame : PortFrame g p (ports p) new) (q : Nat) :
    PortFrame g q (ports q) (Function.update ports p new q) := by
  by_cases here : q = p
  · subst here
    rw [Function.update_self]
    exact frame
  · rw [Function.update_of_ne here]
    exact PortFrame.refl

/-- What one effect can change in any port. -/
theorem Effect.port (effect : Effect c a g s t) (q : Nat) :
    PortFrame g q (s.ports q) (t.ports q) := by
  cases effect with
  | idle asked running sde => exact PortFrame.minor _ _ _ _ _ _
  | putLast p there =>
    obtain ⟨_, same⟩ := putLast_state p s
    rw [same]
    exact PortFrame.update (PortFrame.minor _ _ _ _ _ _) q
  | keepLast p kind m held free follows source kinds =>
    exact PortFrame.update (PortFrame.minor _ _ _ _ _ _) q
  | dropDelayReq p m there => exact PortFrame.update (PortFrame.minor _ _ _ _ _ _) q
  | keepDelayReq p m held => exact PortFrame.update (PortFrame.minor _ _ _ _ _ _) q
  | dropPeerDelay slot p =>
    obtain ⟨_, same⟩ := dropPeerDelay_state slot p s
    rw [same]
    exact PortFrame.update (PortFrame.minor _ _ _ _ _ _) q
  | handPeerDelay p m held free peers => exact PortFrame.update (PortFrame.minor _ _ _ _ _ _) q
  | keepPeerDelay slot p m held free kind =>
    exact PortFrame.update (PortFrame.minor _ _ _ _ _ _) q
  | announce m held received type meets =>
    obtain ⟨_, _, _, _, _, _, _, _, _, same⟩ := announced_processAnnounce (c := c) (a := a) (s := s)
      (p := g.here) m
    have listed := processAnnounce_addresses (c := c) (a := a) g.here g.here m s
    rw [same] at listed ⊢
    dsimp only at listed
    rw [Function.update_self] at listed
    apply PortFrame.update
    constructor <;> simp [listed]
  | clearBest =>
    obtain ⟨_, _, same⟩ := clearBest_state g.here s
    have listed := clearBest_addresses g.here g.here s
    rw [same] at listed ⊢
    dsimp only at listed
    rw [Function.update_self] at listed
    apply PortFrame.update
    constructor <;> simp [listed]
  | abandon p fault =>
    obtain ⟨_, same⟩ := abandon_state p s
    rw [same]
    apply PortFrame.update
    constructor <;> simp [fault]
  | become p next fault started follows =>
    apply PortFrame.update
    constructor
    · exact Or.inr ⟨fault, started, follows⟩
    all_goals simp
  | detectPeer p auto =>
    apply PortFrame.update
    constructor <;> simp [auto]
  | faultType p type => exact PortFrame.update (PortFrame.minor _ _ _ _ _ _) q
  | link status =>
    apply PortFrame.update
    constructor <;> simp
  | synchronize ingress origin t1From t2From follows sources meets =>
    obtain ⟨_, _, _, _, _, same⟩ := timed_clockSynchronize (c := c) (a := a) (s := s) g.here ingress
      origin t1From t2From
    rw [same]
    exact PortFrame.refl
  | pathDelay req rx source follows parent =>
    obtain ⟨_, _, _, _, _, same⟩ := timed_clockPathDelay (s := s) g.here req rx source
    rw [same]
    exact PortFrame.refl
  | setting setting uds => cases setting <;> exact PortFrame.refl
  | _ => exact PortFrame.refl

/-- A port comes to follow a master only where the guards allow it. -/
theorem Effect.tracks (effect : Effect c a g s t) {q : Nat} (tracks : (t.ports q).state.tracks) :
    (s.ports q).state.tracks ∨ g.follows q := by
  rcases (effect.port q).state with same | moves
  · rw [same] at tracks
    exact Or.inl tracks
  · exact moves.follows tracks

/-- An effect that leaves what is known of the foreign masters, unless a port gives them up. -/
structure Quiet (g : Guards) (s t : ClockState) : Prop where
  foreign : ∀ q, (t.ports q).foreignMasters = (s.ports q).foreignMasters ∧
      (t.ports q).best = (s.ports q).best ∨
    g.faults q ∧ (t.ports q).foreignMasters = [] ∧ (t.ports q).best = none
  nextForeign : t.nextForeign = s.nextForeign
  path : t.path = s.path
  tds : t.tds = s.tds
  heard : t.heard = s.heard
  reported : t.reported = s.reported

/-- The fields of the clock that only an announce changes. -/
def Unheard (s t : ClockState) : Prop :=
  t.nextForeign = s.nextForeign ∧ t.path = s.path ∧ t.tds = s.tds ∧ t.heard = s.heard ∧
    t.reported = s.reported

/-- A step that leaves the records, or gives all of a faulty port up. -/
theorem Quiet.of_ports (foreign : ∀ q, (t.ports q).foreignMasters = (s.ports q).foreignMasters ∧
      (t.ports q).best = (s.ports q).best ∨
    g.faults q ∧ (t.ports q).foreignMasters = [] ∧ (t.ports q).best = none)
    (unheard : Unheard s t) : Quiet g s t :=
  ⟨foreign, unheard.1, unheard.2.1, unheard.2.2.1, unheard.2.2.2.1, unheard.2.2.2.2⟩

/-- No port is concerned. -/
theorem Quiet.still (ports : t.ports = s.ports) (unheard : Unheard s t) : Quiet g s t := by
  apply Quiet.of_ports _ unheard
  intro q
  rw [ports]
  exact Or.inl ⟨rfl, rfl⟩

/-- Only one port is concerned, and its foreign masters are not. -/
theorem Quiet.port {p : Nat} {new : Port} (ports : t.ports = Function.update s.ports p new)
    (records : new.foreignMasters = (s.ports p).foreignMasters ∧ new.best = (s.ports p).best)
    (unheard : Unheard s t) : Quiet g s t := by
  apply Quiet.of_ports _ unheard
  intro q
  rw [ports]
  by_cases here : q = p
  · subst here
    rw [Function.update_self]
    exact Or.inl records
  · rw [Function.update_of_ne here]
    exact Or.inl ⟨rfl, rfl⟩

/-- An effect is an announce, or it clears the best foreign master, or it is quiet. -/
theorem Effect.kinds (effect : Effect c a g s t) :
    (∃ m, m.cell ∈ s.hands ∧ g.delivers m.msg ∧ m.msg.type = .announce ∧ Meets g.before s g.here ∧
      t = (processAnnounce c a g.here m s).2) ∨ t = LinuxPtp.clearBest g.here s ∨
      Quiet g s t := by
  cases effect with
  | announce m held received type meets => exact Or.inl ⟨m, held, received, type, meets, rfl⟩
  | clearBest => exact Or.inr (Or.inl rfl)
  | idle asked running sde =>
    exact Or.inr (Or.inr (Quiet.of_ports (fun _ => Or.inl ⟨rfl, rfl⟩) ⟨rfl, rfl, rfl, rfl, rfl⟩))
  | putLast p there =>
    obtain ⟨_, same⟩ := putLast_state p s
    rw [same]
    exact Or.inr (Or.inr (Quiet.port rfl ⟨rfl, rfl⟩ ⟨rfl, rfl, rfl, rfl, rfl⟩))
  | dropPeerDelay slot p =>
    obtain ⟨_, same⟩ := dropPeerDelay_state slot p s
    rw [same]
    exact Or.inr (Or.inr (Quiet.port rfl ⟨rfl, rfl⟩ ⟨rfl, rfl, rfl, rfl, rfl⟩))
  | keepLast p | dropDelayReq p | keepDelayReq p | handPeerDelay p | keepPeerDelay _ p | become p
  | detectPeer p | faultType p | link status =>
    exact Or.inr (Or.inr (Quiet.port rfl ⟨rfl, rfl⟩ ⟨rfl, rfl, rfl, rfl, rfl⟩))
  | abandon p fault =>
    obtain ⟨_, same⟩ := abandon_state p s
    rw [same]
    refine Or.inr (Or.inr (Quiet.of_ports ?_ ⟨rfl, rfl, rfl, rfl, rfl⟩))
    intro q
    by_cases here : q = p
    · subst here
      exact Or.inr ⟨fault, by simp⟩
    · exact Or.inl (by simp [here])
  | synchronize ingress origin t1From t2From follows sources meets =>
    obtain ⟨_, _, _, _, _, same⟩ := timed_clockSynchronize (c := c) (a := a) (s := s) g.here ingress
      origin t1From t2From
    rw [same]
    exact Or.inr (Or.inr (Quiet.still rfl ⟨rfl, rfl, rfl, rfl, rfl⟩))
  | pathDelay req rx source follows parent =>
    obtain ⟨_, _, _, _, _, same⟩ := timed_clockPathDelay (s := s) g.here req rx source
    rw [same]
    exact Or.inr (Or.inr (Quiet.still rfl ⟨rfl, rfl, rfl, rfl, rfl⟩))
  | setting setting uds =>
    cases setting <;> exact Or.inr (Or.inr (Quiet.still rfl ⟨rfl, rfl, rfl, rfl, rfl⟩))
  | _ => exact Or.inr (Or.inr (Quiet.still rfl ⟨rfl, rfl, rfl, rfl, rfl⟩))

/-- What every effect keeps holds after any number of them. -/
theorem Effects.keeps {Invariant : ClockState → Prop} (effects : Effects c a g s t)
    (initially : Invariant s)
    (keeps : ∀ s t, Effect c a g s t → Invariant s → Invariant t) : Invariant t := by
  induction effects with
  | refl => exact initially
  | tail _ effect inductionHypothesis => exact keeps _ _ effect inductionHypothesis

end Effects

end LinuxPtp
