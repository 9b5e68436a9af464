import LinuxPtp.EffectFrames

/-!
# The effects of the steps of a poll

The steps of a poll other than the state decision, as sequences of effects.

The steps are descriptors of ports and of the local socket, and fault timers. The state decision
is left out as it may do more than the guards of any handler allow.
-/

namespace LinuxPtp

section Steps

variable {c : Clock} {a : Answers} {g : Guards} {s t : ClockState}

/-- The ports that were never put to work count as faulty ones. -/
def Fresh (g : Guards) (s : ClockState) : Prop :=
  ∀ q, (s.ports q).state = .initializing ∨ (s.ports q).state = .disabled → g.faults q

/-- That stays so: a port that an effect moves is put to work by it. -/
theorem Effects.fresh (effects : Effects c a g s t) (fresh : Fresh g s) : Fresh g t := by
  apply effects.keeps fresh
  intro s t effect fresh q idle
  rcases (effect.port q).state with same | moves
  · rw [same] at idle
    exact fresh q idle
  · rcases idle with initializing | disabled
    · exact absurd initializing moves.working.1
    · exact absurd disabled moves.working.2

/-! ## The events of a descriptor -/

/-- The events that come from descriptors. -/
def Raised (event : FsmEvent) : Prop :=
  event = .none ∨ event = .faultDetected ∨ event = .faultCleared ∨ event = .stateDecisionEvent ∨
    event = .announceReceiptTimeoutExpires ∨ event = .qualificationTimeoutExpires

theorem raised_faultIf (result : Bool × ClockState) : Raised (faultIf result).1 := by
  unfold faultIf Raised
  dsimp only
  split <;> simp

theorem raised_decisionIf (result : Bool × ClockState) : Raised (decisionIf result).1 := by
  unfold decisionIf Raised
  dsimp only
  split <;> simp

/-- A change of the link is told as a fault, as the end of one, or not at all. -/
theorem raised_rtnlEvent (p : Nat) : Raised (rtnlEvent c a p s).1 := by
  unfold rtnlEvent Raised
  dsimp only
  split
  · simp
  split <;> simp

/-- What a message does at a boundary clock raises only events that a descriptor may raise. -/
theorem raised_bcProcess (p : Nat) (m : Stored) : Raised (bcProcess c a p m s).1 := by
  unfold bcProcess
  split
  all_goals first
    | exact raised_faultIf _
    | exact raised_decisionIf _
    | exact Or.inl rfl

/-- So does a whole reception, whether the message is parsed or thrown away. -/
theorem raised_bcReceive (p : Nat) : Raised (bcReceive c a p s).1 := by
  unfold bcReceive
  split
  · exact Or.inr (Or.inl rfl)
  · exact Or.inl rfl
  · dsimp only
    split
    · exact Or.inl rfl
    · exact raised_bcProcess p _

/-- One event or the other, by whether the message is a duplicate. -/
theorem raised_ite {dup : Bool} {first second : FsmEvent × ClockState} (yes : Raised first.1)
    (no : Raised second.1) : Raised (if dup then first else second).1 := by
  cases dup
  · exact no
  · exact yes

theorem raised_e2eProcess (p : Nat) (m : Stored) (dup : Bool) :
    Raised (e2eProcess c a p m dup s).1 := by
  unfold e2eProcess
  split
  all_goals first
    | exact raised_ite (raised_decisionIf _) (Or.inl rfl)
    | exact Or.inl rfl

theorem raised_p2pProcess (p : Nat) (m : Stored) (dup : Bool) :
    Raised (p2pProcess c a p m dup s).1 := by
  unfold p2pProcess
  split
  all_goals first
    | exact raised_ite (raised_decisionIf _) (Or.inl rfl)
    | exact raised_ite (raised_faultIf _) (Or.inl rfl)
    | exact Or.inl rfl

/-- A transparent clock forwards before it processes; a failure on the way is a fault. -/
theorem raised_relayReceive (endToEnd : Bool) (p : Nat) :
    Raised (relayReceive c a endToEnd p s).1 := by
  unfold relayReceive
  split
  · exact Or.inr (Or.inl rfl)
  · exact Or.inl rfl
  · dsimp only
    split
    · exact Or.inl rfl
    cases endToEnd
    · exact raised_p2pProcess p _ _
    · exact raised_e2eProcess p _ _

/-- Every descriptor of a boundary clock raises an event of this kind. -/
theorem raised_bcEvent (p : Nat) (fd : Descriptor) : Raised (bcEvent c a p fd s).1 := by
  have timeout : Raised (bcTimeout c a p s).1 := by
    unfold bcTimeout Raised
    dsimp only
    split <;> simp
  unfold bcEvent
  split
  · exact timeout
  · exact timeout
  · exact raised_faultIf _
  · simp [Raised]
  · exact raised_faultIf _
  · exact raised_faultIf _
  · exact raised_rtnlEvent p
  · exact raised_bcReceive p
  · exact raised_bcReceive p

theorem raised_e2eEvent (p : Nat) (fd : Descriptor) : Raised (e2eEvent c a p fd s).1 := by
  unfold e2eEvent
  split
  · simp [Raised, tcTimeout]
  · simp [Raised, tcTimeout]
  · unfold e2eDelayTimer
    dsimp only
    split
    · exact raised_faultIf _
    · exact Or.inl rfl
  · simp [Raised]
  · exact Or.inl rfl
  · exact Or.inl rfl
  · exact raised_rtnlEvent p
  · exact raised_relayReceive true p
  · exact raised_relayReceive true p

theorem raised_p2pEvent (p : Nat) (fd : Descriptor) : Raised (p2pEvent c a p fd s).1 := by
  unfold p2pEvent
  split
  · simp [Raised, tcTimeout]
  · simp [Raised, tcTimeout]
  · unfold p2pDelayTimer
    dsimp only
    split
    · exact raised_faultIf _
    · exact Or.inl rfl
  · simp [Raised]
  · exact Or.inl rfl
  · exact Or.inl rfl
  · exact raised_rtnlEvent p
  · exact raised_relayReceive false p
  · exact raised_relayReceive false p

/-- The same for the dispatch of each type of clock. -/
theorem raised_portEvent (p : Nat) (fd : Descriptor) : Raised (portEvent c a p fd s).1 := by
  unfold portEvent
  split
  · exact raised_bcEvent p fd
  · exact raised_bcEvent p fd
  · exact raised_e2eEvent p fd
  · exact raised_p2pEvent p fd

/-- An event of a descriptor upsets a port only if it is a fault, or the port is out of work. -/
theorem Raised.upsets {event : FsmEvent} {state : PortState} (raised : Raised event)
    (upsets : Upsets state event) :
    event = .faultDetected ∨ state = .initializing ∨ state = .disabled := by
  rcases upsets with fault | rfl | rfl | idle
  · exact Or.inl fault
  · simp [Raised] at raised
  · simp [Raised] at raised
  · exact Or.inr idle

/-! ## Steps -/

/-- What the guards have to allow while a descriptor is handled and its event dispatched. -/
structure AllowsStep (c : Clock) (a : Answers) (g : Guards) (fd : Descriptor) : Prop
    extends AllowsDescriptor c a g fd where
  faulted : (portEvent c a g.here fd g.before).1 = .faultDetected → g.faults g.here
  fresh : Fresh g g.before

/-- The handling of a descriptor in one piece: the event first, then the state machine with it. -/
theorem handleDescriptor_eq (p : Nat) (fd : Descriptor) : handleDescriptor c a p fd s =
    let done := portEvent c a p fd s
    portDispatch c a p done.1 false
      (if done.1 = .stateDecisionEvent ∨ done.1 = .announceReceiptTimeoutExpires then
        { done.2 with sde := true }
      else done.2) := rfl

/-- A descriptor of the port works only by effects that its guards allow. -/
theorem handleDescriptor_works {fd : Descriptor} (allows : AllowsStep c a g fd)
    (start : s = g.before) : Works c a g s (handleDescriptor c a g.here fd s) := by
  have raised := raised_portEvent (c := c) (a := a) (s := s) g.here fd
  have work : Works c a g s (portEvent c a g.here fd s).2 :=
    portEvent_works allows.toAllowsDescriptor start
  have faulted := allows.faulted
  rw [← start] at faulted
  rw [handleDescriptor_eq]
  dsimp only
  generalize portEvent c a g.here fd s = done at raised work faulted ⊢
  have noted : Works c a g s (if done.1 = .stateDecisionEvent ∨
      done.1 = .announceReceiptTimeoutExpires then { done.2 with sde := true } else done.2) := by
    split
    · exact work.trans (sde_works true)
    · exact work
  have fresh := noted.effects.fresh (start ▸ allows.fresh)
  apply noted.trans
  apply portDispatch_works
  · rcases raised with same | same | same | same | same | same <;> rw [same] <;> nofun
  · intro upsets
    rcases raised.upsets upsets with fault | idle
    · exact faulted fault
    · exact fresh _ idle
  · intro slave
    rcases raised with same | same | same | same | same | same <;> rw [slave] at same <;> cases same
  · exact fun failed _ _ => allows.switches failed

/-- A descriptor of the UDS port works by such effects, too, under the same guards. -/
theorem handleUds_works {fd : Descriptor} (allows : AllowsDescriptor c a g fd)
    (start : s = g.before) (uds : g.here = 0) : Works c a g s (handleUds c a fd s) := by
  have work : Works c a g s (portEvent c a g.here fd s).2 :=
    portEvent_works allows start
  rw [uds] at work
  unfold handleUds
  dsimp only
  split
  · exact work.trans (sde_works true)
  · exact work

/-- There is no fault to be cleared on a port that follows a master. -/
theorem updateOf_faultCleared {p : Nat} (follows : (s.ports p).state.tracks) :
    (updateOf c a p .faultCleared false s).next = (s.ports p).state := by
  unfold updateOf Clock.machine
  cases state : (s.ports p).state <;> rw [state] at follows <;> try cases follows
  all_goals split <;> rfl

/-- The expiry of a fault timer, once the timer is disarmed. -/
theorem handleFaultTimer_works (start : disarmFault g.here s = g.before)
    (fresh : Fresh g g.before) :
    Works c a g (disarmFault g.here s) (handleFaultTimer c a g.here s) := by
  unfold handleFaultTimer
  dsimp only
  split
  · apply portDispatch_works
    · nofun
    · rintro (impossible | impossible | impossible | idle)
      · cases impossible
      · cases impossible
      · cases impossible
      · rw [start] at idle
        exact fresh _ idle
    · nofun
    · intro _ uncalibrated differ
      have follows : ((disarmFault g.here s).ports g.here).state.tracks := by
        have updates := updateOf_updates c a g.here .faultCleared false (disarmFault g.here s)
        rcases updates.tracks (by rw [uncalibrated]; rfl) with tracks | impossible
        · exact tracks
        · cases impossible
      exact absurd (updateOf_faultCleared follows) differ
  · exact Works.refl _

end Steps

end LinuxPtp
