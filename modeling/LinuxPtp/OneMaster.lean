import LinuxPtp.SyncPairs
import LinuxPtp.Exchanges

/-!
# Measurements from one master

A clock that measures the path delay end to end keeps the time stamps of a Sync beside those of a
Delay_Req and its Delay_Resp. A state decision that finds another best clock forgets them, one that
finds the same clock at another port does not. As long as none of the latter makes another port
the parent, all the time stamps that the clock combines come from one port.

The time stamps carry the port they are from in the model, for the sake of these statements only.
An invariant ties them, and what the ports keep, to the parent; the steps that change the parent
are what the condition is about.
-/

namespace LinuxPtp

/-- The time stamps that are kept come from the messages of a certain port. -/
structure Tsproc.From (source : PortIdentity) (tsp : Tsproc) : Prop where
  down : tsp.t2 ≠ 0 → tsp.t1From = some source ∧ tsp.t2From = some source
  up : tsp.t3 ≠ 0 → tsp.t4From = some source

/-- Whatever time stamps the clock combined, they came from the messages of one port. -/
def CombinedFromOne (s : ClockState) : Prop :=
  ∀ p t1From t2From t4From, .combined p t1From t2From t4From ∈ s.log →
    ∃ master, t1From = some master ∧ t2From = some master ∧ t4From = some master

/-- Time stamps were combined. -/
def IsCombined (noted : Observation) : Prop :=
  ∃ p t1From t2From t4From, noted = .combined p t1From t2From t4From

section Stamps

variable {c : Clock} {a : Answers} {s t u : ClockState} {p : Nat} {source : PortIdentity}

/-- Times that are cleared are from nobody. -/
theorem Tsproc.From.reset (full : Bool) (tsp : Tsproc) : (tsprocReset full tsp).From source where
  down := fun kept => absurd rfl kept
  up := fun kept => absurd rfl kept

/-- The times of a pair from a port. -/
theorem Tsproc.From.downTs {tsp : Tsproc} (kept : tsp.From source) (remoteTs localTs : Int) :
    (tsprocDownTs remoteTs localTs source source tsp).From source where
  down := fun _ => ⟨rfl, rfl⟩
  up := kept.up

/-- The times of a request that was answered by a port. -/
theorem Tsproc.From.upTs {tsp : Tsproc} (kept : tsp.From source) (localTs remoteTs : Int) :
    (tsprocUpTs localTs remoteTs source tsp).From source where
  down := kept.down
  up := fun _ => rfl

/-- What was combined in between came from the messages of a certain port. -/
def CombinesFrom (source : PortIdentity) (s t : ClockState) : Prop :=
  ∀ p t1From t2From t4From, .combined p t1From t2From t4From ∈ t.log →
    .combined p t1From t2From t4From ∈ s.log ∨
      t1From = some source ∧ t2From = some source ∧ t4From = some source

/-- A step that combines nothing. -/
theorem CombinesFrom.of_unnoted (unnoted : Unnoted IsCombined s t) : CombinesFrom source s t :=
  fun p t1From t2From t4From member => Or.inl (unnoted _ ⟨p, t1From, t2From, t4From, rfl⟩ member)

/-- Two steps that combine times of one port only. -/
theorem CombinesFrom.trans (first : CombinesFrom source s t) (second : CombinesFrom source t u) :
    CombinesFrom source s u := by
  intro p t1From t2From t4From member
  rcases second p t1From t2From t4From member with before | combined
  · exact first p t1From t2From t4From before
  · exact Or.inr combined

/-- So all that was combined until then was of one port each. -/
theorem CombinesFrom.combinedFromOne (combines : CombinesFrom source s t)
    (before : CombinedFromOne s) : CombinedFromOne t := by
  intro p t1From t2From t4From member
  rcases combines p t1From t2From t4From member with old | new
  · exact before p t1From t2From t4From old
  · exact ⟨source, new⟩

/-- The time stamps for a delay are there. -/
theorem combinesFrom_getRawDelay (kept : s.tsproc.From source) (down : s.tsproc.t2 ≠ 0)
    (up : s.tsproc.t3 ≠ 0) : CombinesFrom source s (getRawDelay p s) := by
  intro q t1From t2From t4From member
  rcases List.mem_append.mp member with old | new
  · exact Or.inl old
  · right
    cases List.mem_singleton.mp new
    exact ⟨(kept.down down).1, (kept.down down).2, kept.up up⟩

/-- An offset that is not filtered takes all four time stamps. -/
theorem hasOffset_raw {mode : TsprocMode} {tsp : Tsproc} (raw : mode.usesRawDelay)
    (offset : tsp.hasOffset mode) : tsp.t2 ≠ 0 ∧ tsp.t3 ≠ 0 := by
  unfold Tsproc.hasOffset at offset
  cases mode with
  | filter => cases raw
  | raw | rawWeight =>
    simp only [Bool.and_eq_true, decide_eq_true_eq] at offset
    exact ⟨offset.1.2, offset.2⟩
  | filterWeight =>
    simp only [Bool.and_eq_true, decide_eq_true_eq] at offset
    exact ⟨offset.1.2, offset.2.1⟩

/-- An offset is combined from times that are all from one port. -/
theorem combinesFrom_tsprocUpdateOffset (kept : s.tsproc.From source)
    (offset : s.tsproc.hasOffset c.tsprocMode) :
    CombinesFrom source s (tsprocUpdateOffset c a p s) := by
  unfold tsprocUpdateOffset
  dsimp only
  split
  next raw =>
    obtain ⟨down, up⟩ := hasOffset_raw raw offset
    exact combinesFrom_getRawDelay kept down up
  · exact CombinesFrom.of_unnoted (Unnoted.of_log rfl)

/-- A pair comes from the port that the other times are from. -/
theorem combinesFrom_clockSynchronize (kept : s.tsproc.From source) (ingress origin : Int) :
    CombinesFrom source s (clockSynchronize c a p ingress origin source source s).2 := by
  have down : CombinesFrom source s
      { s with tsproc := tsprocDownTs origin ingress source source s.tsproc } :=
    CombinesFrom.of_unnoted (Unnoted.of_log rfl)
  have corrected (t : ClockState) : CombinesFrom source t (clockUtcCorrect c p ingress t).2 :=
    CombinesFrom.of_unnoted (unnoted_clockUtcCorrect (by simp [IsCombined]) ingress)
  refine clockSynchronize_keeps down (fun offset => ?_) fun _ combined =>
    combined.trans (CombinesFrom.of_unnoted unnoted_servoSample)
  have measured := down.trans
    (combinesFrom_tsprocUpdateOffset (a := a) (p := p) (kept.downTs origin ingress) offset)
  exact measured.trans (corrected _)

/-- An answer comes from the port that the other times are from. -/
theorem combinesFrom_clockPathDelay (kept : s.tsproc.From source) (req rx : Int) :
    CombinesFrom source s (clockPathDelay p req rx source s) := by
  have up : CombinesFrom source s { s with tsproc := tsprocUpTs req rx source s.tsproc } :=
    CombinesFrom.of_unnoted (Unnoted.of_log rfl)
  unfold clockPathDelay
  dsimp only
  split
  next delay =>
    simp only [Tsproc.hasDelay, Bool.and_eq_true, decide_eq_true_eq] at delay
    exact (up.trans (combinesFrom_getRawDelay (kept.upTs req rx) delay.1 delay.2)).trans
      (CombinesFrom.of_unnoted (Unnoted.of_log rfl))
  · exact up

/-- Afterwards the times are from that port, or cleared. -/
theorem from_clockSynchronize (kept : s.tsproc.From source) (ingress origin : Int) :
    (clockSynchronize c a p ingress origin source source s).2.tsproc.From source := by
  rcases clockSynchronize_tsproc (c := c) (a := a) (s := s) (p := p) ingress origin source source
    with same | reset
  · rw [same]
    exact kept.downTs origin ingress
  · rw [reset]
    exact Tsproc.From.reset ..

/-- Afterwards the times are from that port. -/
theorem from_clockPathDelay (kept : s.tsproc.From source) (req rx : Int) :
    (clockPathDelay p req rx source s).tsproc.From source := by
  have up : (tsprocUpTs req rx source s.tsproc).From source := kept.upTs req rx
  unfold clockPathDelay
  dsimp only
  split
  · exact ⟨up.down, up.up⟩
  · exact up

end Stamps

/-! ## Effects -/

section Effects

variable {c : Clock} {a : Answers} {g : Guards} {s t : ClockState}

/-- What an effect does to the time stamps. -/
inductive Measuring (c : Clock) (a : Answers) (s t : ClockState) : Prop where
  | still (tsproc : t.tsproc = s.tsproc) (unnoted : Unnoted IsCombined s t)
  | down (p : Nat) (ingress origin : Int) (t1From t2From : PortIdentity)
    (sources : ∀ source, source = t1From ∨ source = t2From →
      source = s.parent.parentPortIdentity ∨ (s.ports p).syfu ≠ .empty ∧
        ∃ last, (s.ports p).lastSyncfup = some last ∧ last.msg.sourcePortIdentity = source)
    (same : t = (clockSynchronize c a p ingress origin t1From t2From s).2)
  | up (p : Nat) (req rx : Int)
    (same : t = clockPathDelay p req rx s.parent.parentPortIdentity s)
  | peer (p : Nat) (kept : ((s.ports p).peerDelay .req).isSome)

/-- An effect is a synchronisation, a delay, or neither. -/
theorem Effect.measuring (effect : Effect c a g s t) : Measuring c a s t := by
  cases effect with
  | putLast p there =>
    obtain ⟨_, same⟩ := putLast_state p s
    rw [same]
    exact .still rfl (Unnoted.of_log rfl)
  | dropPeerDelay slot p =>
    obtain ⟨_, same⟩ := dropPeerDelay_state slot p s
    rw [same]
    exact .still rfl (Unnoted.of_log rfl)
  | announce m held received type meets =>
    refine .still ?_ (unnoted_processAnnounce (by simp [IsCombined]) m)
    obtain ⟨_, _, _, _, _, _, _, _, _, same⟩ := announced_processAnnounce (c := c) (a := a) (s := s)
      (p := g.here) m
    rw [same]
  | clearBest =>
    obtain ⟨_, _, same⟩ := clearBest_state g.here s
    rw [same]
    exact .still rfl (Unnoted.of_log rfl)
  | abandon p fault =>
    obtain ⟨_, same⟩ := abandon_state p s
    rw [same]
    exact .still rfl (Unnoted.of_log rfl)
  | pair p last m there same source follows sync fup kinds =>
    exact .still rfl (unnoted_note (by simp [IsCombined]))
  | take q takes same => exact .still rfl (unnoted_note (by simp [IsCombined]))
  | synchronize ingress origin t1From t2From follows sources meets =>
    exact .down g.here ingress origin t1From t2From sources rfl
  | pathDelay req rx source follows parent =>
    subst parent
    exact .up g.here req rx rfl
  | peerDelay req rx source follows measured => exact .peer g.here measured
  | setting setting uds => cases setting <;> exact .still rfl (Unnoted.of_log rfl)
  | _ => exact .still rfl (Unnoted.of_log rfl)

/-- Only a port that measures with its peer keeps a request to it. -/
theorem Effect.requests (effect : Effect c a g s t) (q : Nat)
    (mechanism : (s.ports q).delayMechanism ≠ .p2p) (none : (s.ports q).peerDelay .req = none) :
    (t.ports q).peerDelay .req = .none := by
  have update {p : Nat} {ports : Nat → Port} {new : Port} (other : ports q = s.ports q)
      (here : q = p → new.peerDelay .req = .none) :
      (Function.update ports p new q).peerDelay .req = .none := by
    by_cases same : q = p
    · subst same
      rw [Function.update_self]
      exact here rfl
    · rw [Function.update_of_ne same, other]
      exact none
  cases effect with
  | handPeerDelay p m held free peers =>
    apply update rfl
    rintro rfl
    exact absurd peers mechanism
  | keepPeerDelay slot p m held free kind =>
    apply update rfl
    rintro rfl
    exact (Function.update_of_ne kind.symm ..).trans none
  | dropPeerDelay slot p =>
    obtain ⟨_, same⟩ := dropPeerDelay_state slot p s
    rw [same]
    apply update rfl
    rintro rfl
    change Function.update (s.ports q).peerDelay slot .none .req = .none
    by_cases this : slot = .req
    · subst this
      rw [Function.update_self]
    · rw [Function.update_of_ne (Ne.symm this)]
      exact none
  | putLast p there =>
    obtain ⟨_, same⟩ := putLast_state p s
    rw [same]
    apply update rfl
    rintro rfl
    exact none
  | abandon p fault =>
    obtain ⟨_, same⟩ := abandon_state p s
    rw [same]
    apply update rfl
    rintro rfl
    exact none
  | keepLast p | dropDelayReq p | keepDelayReq p | become p | detectPeer p | faultType p
  | link status =>
    apply update rfl
    rintro rfl
    exact none
  | announce m held received type meets =>
    obtain ⟨_, _, _, _, _, _, _, _, _, same⟩ := announced_processAnnounce (c := c) (a := a) (s := s)
      (p := g.here) m
    rw [same]
    apply update rfl
    rintro rfl
    exact none
  | clearBest =>
    obtain ⟨_, _, same⟩ := clearBest_state g.here s
    rw [same]
    apply update rfl
    rintro rfl
    exact none
  | synchronize ingress origin t1From t2From follows sources meets =>
    rw [clockSynchronize_ports]
    exact none
  | pathDelay req rx source follows parent =>
    obtain ⟨_, _, _, _, _, same⟩ := timed_clockPathDelay (s := s) g.here req rx source
    rw [same]
    exact none
  | setting setting uds => cases setting <;> exact none
  | _ => exact none

end Effects

/-! ## Runs -/

section Runs

open Runs

variable {c : Clock} {a : Answers} {s t : ClockState}

/-- What is preserved of the sources of the time stamps as long as the parent stays. -/
structure OneMaster (c : Clock) (s : ClockState) : Prop extends OneSource c s where
  mechanism : ∀ p, (s.ports p).delayMechanism = .e2e
  requests : ∀ p, (s.ports p).peerDelay .req = none
  stamps : s.tsproc.From s.parent.parentPortIdentity
  combined : CombinedFromOne s

/-- One effect of a descriptor. The parent does not change in it, and what it puts in comes from the
parent. -/
theorem Effect.oneMaster {before : ClockState} {p : Nat}
    (effect : Effect c a (Guards.undecided c a before p) s t) (kept : OneMaster c s) :
    OneMaster c t := by
  have parent : t.parent = s.parent := effect.undecided.parent
  have measured : t.tsproc.From s.parent.parentPortIdentity ∧
      CombinesFrom s.parent.parentPortIdentity s t := by
    cases effect.measuring with
    | still tsproc unnoted =>
      rw [tsproc]
      exact ⟨kept.stamps, CombinesFrom.of_unnoted unnoted⟩
    | down q ingress origin t1From t2From sources same =>
      have one (source : PortIdentity) (taken : source = t1From ∨ source = t2From) :
          source = s.parent.parentPortIdentity := by
        rcases sources source taken with parent | ⟨busy, last, there, mine⟩
        · exact parent
        · obtain ⟨other, equal, source⟩ := kept.slots q busy
          cases there.symm.trans equal
          exact mine.symm.trans source
      rw [same, one t1From (Or.inl rfl), one t2From (Or.inr rfl)]
      exact ⟨from_clockSynchronize kept.stamps ingress origin,
        combinesFrom_clockSynchronize kept.stamps ingress origin⟩
    | up q req rx same =>
      rw [same]
      exact ⟨from_clockPathDelay kept.stamps req rx, combinesFrom_clockPathDelay kept.stamps req rx⟩
    | peer q asked =>
      rw [kept.requests q] at asked
      cases asked
  constructor
  · exact effect.oneSource kept.toOneSource
  · intro q
    rcases (effect.port q).delayMechanism with same | ⟨auto, _⟩
    · exact same.trans (kept.mechanism q)
    · rw [kept.mechanism q] at auto
      cases auto
  · intro q
    apply effect.requests q _ (kept.requests q)
    rw [kept.mechanism q]
    simp
  · rw [parent]
    exact measured.1
  · exact measured.2.combinedFromOne kept.combined

/-! ### The decision -/

/-- The ports measure as before, no request to a peer is kept, and nothing was combined. -/
structure Unmeasured (s t : ClockState) : Prop where
  mechanism : ∀ p, (t.ports p).delayMechanism = (s.ports p).delayMechanism
  requests : ∀ p, (s.ports p).peerDelay .req = none → (t.ports p).peerDelay .req = none
  combined : Unnoted IsCombined s t

/-- Two steps that measure nothing. -/
theorem Unmeasured.trans {u : ClockState} (first : Unmeasured s t) (second : Unmeasured t u) :
    Unmeasured s u where
  mechanism := fun p => (second.mechanism p).trans (first.mechanism p)
  requests := fun p none => second.requests p (first.requests p none)
  combined := first.combined.trans second.combined

/-- The ports stay as they are, and nothing is combined. -/
theorem Unmeasured.of_ports (ports : t.ports = s.ports) (combined : Unnoted IsCombined s t) :
    Unmeasured s t where
  mechanism := by
    intro p
    rw [ports]
  requests := by
    intro p none
    rw [ports]
    exact none
  combined := combined

/-- The choice of the best master measures nothing. -/
theorem unmeasured_decided : Unmeasured s (decided c a s).2 := by
  obtain ⟨_, _, _, _, _, _, _, each, same⟩ := decided_state (c := c) (a := a) s
  rw [same]
  constructor
  · intro p
    obtain ⟨_, _, here⟩ := each p
    dsimp only
    rw [here]
  · intro p none
    obtain ⟨_, _, here⟩ := each p
    dsimp only
    rw [here]
    exact none
  · exact Unnoted.of_log rfl

/-- An event at a port measures nothing. -/
theorem unmeasured_portDispatch (event : FsmEvent) (mdiff : Bool) (p : Nat) :
    Unmeasured s (portDispatch c a p event mdiff s) := by
  have touches := portDispatch_touches c a p event mdiff s
  have calm : Calm s (portDispatch c a p event mdiff s) := calm_portDispatch event mdiff
  constructor
  · intro q
    by_cases here : q = p
    · subst here
      exact touches.delayMechanism
    · rw [portDispatch_elsewhere here]
  · intro q before
    rcases (calm.ports q).peers .req with same | none
    · exact same.trans before
    · exact none
  · obtain ⟨_, _, _, _, _, frame⟩ := touches.frame
    apply Unnoted.of_log
    rw [frame]

/-- A port is told what to do. -/
theorem unmeasured_recommend (freshBest : Bool) (p : Nat) :
    Unmeasured s (recommend c a freshBest s p) := by
  have informed : Unmeasured s (informed c (bmcStateDecision c p s) s) := by
    unfold informed
    split
    · exact Unmeasured.of_ports rfl (Unnoted.of_log rfl)
    · unfold clockUpdateSlave
      split
      · exact Unmeasured.of_ports rfl (Unnoted.of_log rfl)
      · have took (port : Nat) (first : Option Stored) :
            Unnoted IsCombined s (s.note (.took port first)) :=
          unnoted_note (by simp [IsCombined])
        dsimp only
        split
        · exact Unmeasured.of_ports rfl (took _ _)
        · exact Unmeasured.of_ports rfl ((took _ _).trans (Unnoted.of_log rfl))
    · exact Unmeasured.of_ports rfl (Unnoted.of_log rfl)
  rw [recommend_eq]
  exact informed.trans (unmeasured_portDispatch _ _ p)

/-- So a state decision measures nothing. -/
theorem unmeasured_handleDecision : Unmeasured s (handleDecision c a s) := by
  unfold handleDecision
  split
  · have told : Unmeasured s (handleStateDecisionEvent c a s) := by
      rw [handleStateDecisionEvent_eq]
      apply unmeasured_decided.trans
      generalize (decided c a s).2 = t
      induction c.ports generalizing t with
      | nil => exact Unmeasured.of_ports rfl (Unnoted.of_log rfl)
      | cons p rest inductionHypothesis =>
        exact (unmeasured_recommend (decided c a s).1 p).trans (inductionHypothesis _)
    exact told.trans (Unmeasured.of_ports rfl (Unnoted.of_log rfl))
  · exact Unmeasured.of_ports rfl (Unnoted.of_log rfl)

/-- The time stamps are forgotten exactly when the best clock is another one. -/
theorem handleDecision_tsproc :
    (handleDecision c a s).bestId = s.bestId ∧ (handleDecision c a s).tsproc = s.tsproc ∨
      (handleDecision c a s).tsproc.t2 = 0 ∧ (handleDecision c a s).tsproc.t3 = 0 := by
  have told (t : ClockState) (p : Nat) (freshBest : Bool) :
      (recommend c a freshBest t p).bestId = t.bestId := by
    obtain ⟨_, _, _, _, _, _, same⟩ := informed_state (c := c) (bmcStateDecision c p t) t
    rw [recommend_eq]
    obtain ⟨_, _, _, _, _, frame⟩ := (portDispatch_touches c a p
      (recommendation (bmcStateDecision c p t)) freshBest
      (informed c (bmcStateDecision c p t) t)).frame
    rw [frame, same]
  have all (freshBest : Bool) (t : ClockState) :
      (c.ports.foldl (recommend c a freshBest) t).bestId = t.bestId ∧
        (c.ports.foldl (recommend c a freshBest) t).tsproc = t.tsproc := by
    refine ⟨?_, (Calm.foldl (fun _ _ => calm_recommend _) _ _).tsproc⟩
    induction c.ports generalizing t with
    | nil => rfl
    | cons p rest inductionHypothesis => exact (inductionHypothesis _).trans (told t p freshBest)
  have elected : (noteUsed (electBest c a c.ports s).2).tsproc = s.tsproc ∧
      (noteUsed (electBest c a c.ports s).2).bestId = s.bestId := by
    obtain ⟨_, _, _, same⟩ := electFrom_state (c := c) (a := a) c.ports none s
    change (electFrom c a c.ports none s).2.tsproc = s.tsproc ∧
      (electFrom c a c.ports none s).2.bestId = s.bestId
    rw [same]
    exact ⟨rfl, rfl⟩
  unfold handleDecision
  split
  · dsimp only
    rw [handleStateDecisionEvent_eq, (all _ _).1, (all _ _).2]
    unfold decided
    rw [adoptBest_eq]
    dsimp only
    unfold tsprocFor
    rw [elected.1, elected.2]
    split
    · right
      split <;> exact ⟨rfl, rfl⟩
    next same => exact Or.inl ⟨not_not.mp same, rfl⟩
  · exact Or.inl ⟨rfl, rfl⟩

/-- No state decision makes another port the parent while a port keeps half of a pair, nor, unless
the best clock is another one too, while the clock keeps half of a measurement. -/
def KeepsMaster (c : Clock) (s : PollState) : PollStep → Prop
  | .decide a =>
      (handleDecision c a s.clock).parent.parentPortIdentity =
          s.clock.parent.parentPortIdentity ∨
        (∀ p ∈ c.ports, (s.clock.ports p).syfu = .empty) ∧
          ((handleDecision c a s.clock).bestId ≠ s.clock.bestId ∨
            s.clock.tsproc.t2 = 0 ∧ s.clock.tsproc.t3 = 0)
  | _ => True

instance (c : Clock) (s : PollState) (step : PollStep) : Decidable (KeepsMaster c s step) :=
  match step with
  | .decide _ => @instDecidableOr _ _ (instDecidableEqPortIdentity _ _)
      (@instDecidableAnd _ _ (@List.decidableBAll _ _ (fun _ => instDecidableEqSyfuState _ _) _)
        inferInstance)
  | .enter _ | .descriptor _ _ _ | .faultTimer _ _ | .uds _ _ => instDecidableTrue

/-- Setting and clearing a fault timer concerns no measurement. -/
theorem unmeasured_armFault (p : Nat) : Unmeasured s (armFault c p s) where
  mechanism := by
    intro q
    obtain ⟨_, same⟩ := armFault_port (c := c) p q s
    rw [same]
  requests := by
    intro q none
    obtain ⟨_, same⟩ := armFault_port (c := c) p q s
    rw [same]
    exact none
  combined := Unnoted.of_log rfl

/-- A fault timer is stopped. -/
theorem unmeasured_disarmFault (p : Nat) : Unmeasured s (disarmFault p s) where
  mechanism := by
    intro q
    obtain ⟨_, same⟩ := disarmFault_port p q s
    rw [same]
  requests := by
    intro q none
    obtain ⟨_, same⟩ := disarmFault_port p q s
    rw [same]
    exact none
  combined := Unnoted.of_log rfl

/-- The time stamps stay or are forgotten, and the sources of what is kept are still one. -/
theorem OneMaster.unmeasured (kept : OneMaster c s) (unmeasured : Unmeasured s t)
    (sources : OneSource c t) (stamps : t.tsproc.From t.parent.parentPortIdentity) :
    OneMaster c t where
  toOneSource := sources
  mechanism := fun p => (unmeasured.mechanism p).trans (kept.mechanism p)
  requests := fun p => unmeasured.requests p (kept.requests p)
  stamps := stamps
  combined := by
    have combines : CombinesFrom s.parent.parentPortIdentity s t :=
      CombinesFrom.of_unnoted unmeasured.combined
    exact combines.combinedFromOne kept.combined

/-- A state decision that makes another port the parent: nothing of the former one is left in the
time stamps or on the ports, by what the run is asked to keep. -/
theorem OneMaster.handleDecision {s : PollState} (kept : OneMaster c s.clock)
    (keeps : KeepsMaster c s (.decide a)) : OneMaster c (handleDecision c a s.clock) := by
  apply kept.unmeasured unmeasured_handleDecision
  · exact kept.slotwise slotwise_handleDecision kept.slaves.handleDecision
      (keeps.imp_right And.left)
  · rcases handleDecision_tsproc (c := c) (a := a) (s := s.clock) with ⟨best, same⟩ | ⟨t2, t3⟩
    · rw [same]
      rcases keeps with parent | ⟨_, other | ⟨t2, t3⟩⟩
      · rw [parent]
        exact kept.stamps
      · exact absurd best other
      · exact ⟨fun here => absurd t2 here, fun here => absurd t3 here⟩
    · exact ⟨fun here => absurd t2 here, fun here => absurd t3 here⟩

/-- One step of the loop, by its kind. -/
theorem pollStep_oneMaster {s : PollState} {step : PollStep} (kept : OneMaster c s.clock)
    (keeps : KeepsMaster c s step) : OneMaster c (pollStep c s step).clock := by
  by_cases decision : ∃ a, step = .decide a
  · obtain ⟨a, rfl⟩ := decision
    exact kept.handleDecision keeps
  · apply pollStep_undecided (OneMaster c) (fun a same => decision ⟨a, same⟩) _ _ _ kept
    · exact fun a _ p before s t effect kept => effect.oneMaster kept
    · exact fun p s kept => kept.unmeasured (unmeasured_armFault p)
        (kept.slotwise (slotwise_armFault p) (kept.slaves.armFault p) (Or.inl rfl)) kept.stamps
    · exact fun p s kept => kept.unmeasured (unmeasured_disarmFault p)
        (kept.slotwise (slotwise_disarmFault p) (kept.slaves.disarmFault p) (Or.inl rfl))
        kept.stamps

/-- A clock that is started has measured nothing. -/
theorem oneMaster_start (start : StartUp) (endToEnd : ∀ p, (c.setup p).delayMechanism = .e2e) :
    OneMaster c (start.state c).clock := by
  have began (s : ClockState) : Unmeasured s (clockStart c start.answers s) := by
    unfold clockStart
    generalize c.ports ++ [0] = list
    induction list generalizing s with
    | nil => exact Unmeasured.of_ports rfl (Unnoted.of_log rfl)
    | cons q rest inductionHypothesis =>
      exact (unmeasured_portDispatch _ _ q).trans (inductionHypothesis _)
  constructor
  · constructor
    · exact slavePorts_start c start
    · exact fun p busy => absurd (start_empty start p) busy
    · exact fun p busy => absurd (start_empty start p) busy
    · intro sync fup noted
      rw [start_log] at noted
      cases noted
  · intro p
    exact ((began _).mechanism p).trans (endToEnd p)
  · exact fun p => (began _).requests p rfl
  · obtain ⟨_, _, _, _, _, same⟩ := clockStart_frame (c := c) (a := start.answers)
      (clockOpen c start.dds start.utcOffset start.timeSource start.realtime)
    unfold StartUp.state
    rw [same]
    exact ⟨fun here => absurd rfl here, fun here => absurd rfl here⟩
  · intro p t1From t2From t4From noted
    rw [start_log] at noted
    cases noted

/-- In every run of a clock whose ports measure the path delay end to end, and in which no state
decision makes another port the parent while half of a pair or of a measurement is kept, the time
stamps that the clock combines come from the messages of one port.

Proof: the time stamps of a state are all of the parent, or there are none; new ones are of the
parent as well. A state decision that makes another port the parent finds no halves and no time
stamps of the former one, by what the run is asked for or because the code clears them. -/
theorem combined_from_one {start : StartUp} {polls : List Poll} {events : List PollStep}
    (endToEnd : ∀ p, (c.setup p).delayMechanism = .e2e)
    (moment : events <+: polls.flatMap (Poll.steps c))
    (kept : Along (pollStep c) (KeepsMaster c) (start.state c) events) :
    CombinedFromOne (events.foldl (pollStep c) (start.state c)).clock := by
  have sources : OneMaster c (events.foldl (pollStep c) (start.state c)).clock := by
    apply run_keeps (fun s => OneMaster c s.clock) moment kept (oneMaster_start start endToEnd)
    exact fun s step _ _ sources keeps => pollStep_oneMaster sources keeps
  exact sources.combined

/-- The answer to a request of the first port. -/
def answerMessage (number : UInt8) (sequenceId : UInt16) : PtpMessage :=
  { pairMessage .delayResp number sequenceId with
    requestingPortIdentity := steadyClock.portIdentity 1 }

/-- A poll in which the first port asks for the delay and is answered. -/
def delayPoll (sequenceId : UInt16) : Poll :=
  pollOf 1 [⟨.delayTimer, {}⟩, arrival (answerMessage 5 sequenceId)]

/-- A pair and an answer from the parent that the first decision chose. -/
theorem combined_from_one_delay :
    CombinedFromOne (([electingPoll, pairPoll 1 .locked, delayPoll 0].flatMap
      (Poll.steps steadyClock)).foldl (pollStep steadyClock) (plainStart.state steadyClock)).clock ∧
    .combined 1 (some ⟨Vector.replicate 8 5, 1⟩) (some ⟨Vector.replicate 8 5, 1⟩)
        (some ⟨Vector.replicate 8 5, 1⟩) ∈
      (([electingPoll, pairPoll 1 .locked, delayPoll 0].flatMap
        (Poll.steps steadyClock)).foldl (pollStep steadyClock)
          (plainStart.state steadyClock)).clock.log :=
  ⟨combined_from_one (fun _ => rfl) (List.prefix_refl _) (by decide +kernel), by decide +kernel⟩

end Runs

end LinuxPtp
