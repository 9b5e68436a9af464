import LinuxPtp.BestPointer
import LinuxPtp.PortSteps

/-!
# Fault timers

A port that is FAULTY recovers when its fault timer expires or when its link comes up again. The
timer is set at one place only, after a descriptor of the port was handled, while a port can become
FAULTY at several others. A port that is left without a timer although its link is up stays out of
service.

The steps that can do that to a port are listed here, each with what it has to meet in the state
before it. For every port that is found so at any moment of any run there is the last moment at
which it was not, and the step made there is of the list. The proof takes each kind of step for
itself: a dispatch leaves a port FAULTY only if its fault is not to be cleared at once or its
initialisation fails, and what other ports do reaches a port only by a message that is passed on.
-/

namespace LinuxPtp

open Runs

/-- The port is out of service, and nothing but its link can change that. -/
structure Stranded (s : ClockState) (p : Nat) : Prop where
  faulty : (s.ports p).state = .faulty
  up : (s.ports p).linkStatus.up = true
  unarmed : (s.ports p).faultArmed = false

/-- A fault of this type sets no timer. If it is one to be cleared at once, then the initialisation
of the port fails. -/
def Unattended (c : Clock) (a : Answers) (p : Nat) (type : FaultType) : Prop :=
  ((c.setup p).faultInterval type).arms = false ∧
    (clearFaultAsap ((c.setup p).faultInterval type) → ∃ tick, a.starts p tick = false)

/-- A frame of a transparent clock does not go out at a port. -/
def Blocks (c : Clock) (a : Answers) (p : Nat) : Prop :=
  c.relays ∧ ∃ tick, a.egress p tick = false

/-- What can leave a port stranded: a descriptor of its own, if the type that the port has then for
its latest fault is not attended to, a message of another port that cannot be passed on, an
initialisation that fails once the timer has expired, or a physical clock to which the state decision
cannot switch. -/
def PollStep.Strands (c : Clock) (p : Nat) (s : PollState) : PollStep → Prop
  | .enter _ => False
  | .descriptor q fd a =>
    q = p ∧ Unattended c a p ((pollStep c s (.descriptor p fd a)).clock.ports p).lastFaultType ∨
      q ≠ p ∧ Blocks c a p
  | .faultTimer q a => q = p ∧ a.starts p s.clock.asked = false
  | .uds _ a => Blocks c a p
  | .decide a => ∃ tick, a.switches p tick = false

/-! ## The type of the latest fault -/

section FaultTypes

variable {c : Clock} {a : Answers} {s : ClockState} {p : Nat}

/-- A slot is cleared. -/
theorem faultType_dropPeerDelay (slot : PeerSlot) :
    ((dropPeerDelay slot p s).ports p).lastFaultType = (s.ports p).lastFaultType := by
  obtain ⟨_, same⟩ := dropPeerDelay_state slot p s
  rw [same]
  simp

/-- All slots are cleared. -/
theorem faultType_flushPeerDelay :
    ((flushPeerDelay p s).ports p).lastFaultType = (s.ports p).lastFaultType := by
  unfold flushPeerDelay
  rw [faultType_dropPeerDelay, faultType_dropPeerDelay, faultType_dropPeerDelay]

/-- The type is left by a list of steps if each step leaves it. -/
theorem faultType_foldl {α : Type} {step : ClockState → α → ClockState}
    (each : ∀ s item, ((step s item).ports p).lastFaultType = (s.ports p).lastFaultType)
    (items : List α) (s : ClockState) :
    ((items.foldl step s).ports p).lastFaultType = (s.ports p).lastFaultType := by
  induction items generalizing s with
  | nil => rfl
  | cons item rest inductionHypothesis => exact (inductionHypothesis _).trans (each s item)

/-- The requests are given up. -/
theorem faultType_flushDelayReq :
    ((flushDelayReq p s).ports p).lastFaultType = (s.ports p).lastFaultType := by
  apply faultType_foldl
  intro s m
  unfold dropDelayReq
  rw [withPort_same]
  rfl

/-- The half of a pair is given up. -/
theorem faultType_flushLastSync :
    ((flushLastSync p s).ports p).lastFaultType = (s.ports p).lastFaultType := by
  unfold flushLastSync
  split
  · obtain ⟨_, same⟩ := putLast_state p s
    rw [same]
    simp
  · rfl

/-- A port is disabled without regard to why. -/
theorem faultType_portDisable :
    ((portDisable p s).ports p).lastFaultType = (s.ports p).lastFaultType := by
  rw [portDisable_eq, withRunning_same]
  obtain ⟨_, same⟩ := abandon_state p (flushPeerDelay p (flushDelayReq p (flushLastSync p s)))
  rw [same]
  simp [faultType_flushPeerDelay, faultType_flushDelayReq, faultType_flushLastSync]

/-- A timer is set. -/
theorem faultType_setTmo (fd : Descriptor) :
    ((setTmo p fd s).ports p).lastFaultType = (s.ports p).lastFaultType := by
  simp [setTmo]

/-- A timer is cleared. -/
theorem faultType_clrTmo (fd : Descriptor) :
    ((clrTmo p fd s).ports p).lastFaultType = (s.ports p).lastFaultType := by
  simp [clrTmo]

/-- All timers are cleared. -/
theorem faultType_clrTimers :
    ((clrTimers p s).ports p).lastFaultType = (s.ports p).lastFaultType :=
  faultType_foldl (fun _ fd => faultType_clrTmo fd) _ s

/-- The transition of the end to end mechanism. -/
theorem faultType_portE2eTransition (next : PortState) :
    ((portE2eTransition p next s).ports p).lastFaultType = (s.ports p).lastFaultType := by
  unfold portE2eTransition
  cases next <;>
    simp [faultType_setTmo, faultType_clrTmo, faultType_clrTimers, faultType_portDisable,
      faultType_flushDelayReq, faultType_flushLastSync]

/-- The transition of the peer to peer mechanism. -/
theorem faultType_portP2pTransition (next : PortState) :
    ((portP2pTransition p next s).ports p).lastFaultType = (s.ports p).lastFaultType := by
  unfold portP2pTransition
  cases next <;>
    simp [faultType_setTmo, faultType_clrTimers, faultType_portDisable, faultType_flushPeerDelay,
      faultType_flushLastSync]

/-- The transition of a transparent clock. -/
theorem faultType_tcTransition (flush : Bool) (next : PortState) :
    ((tcTransition flush p next s).ports p).lastFaultType = (s.ports p).lastFaultType := by
  unfold tcTransition
  cases next <;> cases flush <;>
    simp [faultType_setTmo, faultType_clrTimers, faultType_portDisable, faultType_flushDelayReq,
      faultType_flushLastSync]

/-- A fault is to be cleared at once, but the port cannot be initialised; or the fault stays, and
its type says that it is not to be cleared at once. -/
def Remains (c : Clock) (a : Answers) (p : Nat) (s : ClockState) : Prop :=
  (∃ tick, a.starts p tick = false) ∨
    clearFaultAsap ((c.setup p).faultInterval (s.ports p).lastFaultType) = false

/-- The type of the latest fault is all that it depends on. -/
theorem Remains.congr {t : ClockState} (remains : Remains c a p s)
    (same : (t.ports p).lastFaultType = (s.ports p).lastFaultType) : Remains c a p t := by
  unfold Remains
  rw [same]
  exact remains

/-- A port that an event leaves faulty would have been initialised at once if its interval were
ASAP. So the interval is another one, or the initialisation failed. -/
theorem portUpdate_remains {event : FsmEvent} {mdiff : Bool}
    (faulty : (updateOf c a p event mdiff s).next = .faulty) :
    Remains c a p (portUpdate c a p event mdiff s).2 := by
  rcases updateOf_cases c a s p event mdiff with direct | ⟨_, attempted⟩
  · rw [direct] at faulty
    have stays : clearFaultAsap ((c.setup p).faultInterval (s.ports p).lastFaultType) = false := by
      by_contra cleared
      have attempts : (updateOf c a p event mdiff s).initialized = true := by
        have machine : c.machine (s.ports p).state event mdiff = .faulty := faulty
        have asap :
            clearFaultAsap ((c.setup p).faultInterval (s.ports p).lastFaultType) = true := by
          simpa using cleared
        unfold updateOf portStateUpdate
        simp [machine, asap, machine_faultCleared]
      rw [direct] at attempts
      cases attempts
    right
    rw [portUpdate_eq]
    unfold attempt
    rw [direct]
    split
    · exact stays
    · obtain ⟨_, same⟩ := scratch_state (s.ask.withPort p fun port =>
        { port with state := c.machine (s.ports p).state event mdiff }) (c.newMessage p .management)
      dsimp only
      simp only [Bool.false_eq_true, if_false]
      rw [same]
      simp only [withPort_same]
      exact stays
  · left
    rw [attempted] at faulty
    refine ⟨s.asked, ?_⟩
    cases starts : a.starts p s.asked
    · rfl
    · rw [starts] at faulty
      cases faulty

/-- The transition after it does not change the type. -/
theorem bcTransition_remains {event : FsmEvent} {mdiff : Bool}
    (faulty : (updateOf c a p event mdiff s).next = .faulty) :
    Remains c a p (bcTransition c a p event mdiff s).2 := by
  have updated := portUpdate_remains faulty
  rw [bcTransition_eq]
  dsimp only
  split
  · exact updated
  split
  · exact updated.congr (faultType_portP2pTransition _)
  · exact updated.congr (faultType_portE2eTransition _)

/-- A switch of the physical clock that fails is a fault of its own type, and the port is updated
again for it. -/
theorem bcDispatch_remains {event : FsmEvent} {mdiff : Bool}
    (faulty : ((bcDispatch c a p event mdiff s).ports p).state = .faulty) :
    Remains c a p (bcDispatch c a p event mdiff s) := by
  have moved : ((bcTransition c a p event mdiff s).2.ports p).state =
      (updateOf c a p event mdiff s).next := bcTransition_state
  rw [bcDispatch_eq] at faulty ⊢
  dsimp only at faulty ⊢
  split at faulty
  next switches =>
    rw [if_pos switches]
    split at faulty
    next switched =>
      exfalso
      have uncalibrated : ((bcTransition c a p event mdiff s).2.ports p).state = .uncalibrated := by
        simp only [Bool.and_eq_true, decide_eq_true_eq] at switches
        exact switches.2
      have ports : (clockSwitchPhc a p (bcTransition c a p event mdiff s).2).2.ports =
          (bcTransition c a p event mdiff s).2.ports := by
        unfold clockSwitchPhc
        split <;> rfl
      rw [ports, uncalibrated] at faulty
      cases faulty
    next failed =>
      rw [if_neg failed]
      rw [bcTransition_state] at faulty
      exact bcTransition_remains faulty
  next stays =>
    rw [if_neg stays]
    rw [moved] at faulty
    exact bcTransition_remains faulty

/-- The same at a transparent clock, which does not switch. -/
theorem tcDispatch_remains {flush : Bool} {event : FsmEvent} {mdiff : Bool}
    (faulty : ((tcDispatch c a flush p event mdiff s).ports p).state = .faulty) :
    Remains c a p (tcDispatch c a flush p event mdiff s) := by
  rw [tcDispatch_state] at faulty
  have updated := portUpdate_remains faulty
  rw [tcDispatch_eq]
  dsimp only
  split
  · exact updated
  · exact updated.congr (faultType_tcTransition flush _)

/-- The same whatever the type of the clock is. -/
theorem portDispatch_remains {event : FsmEvent} {mdiff : Bool}
    (faulty : ((portDispatch c a p event mdiff s).ports p).state = .faulty) :
    Remains c a p (portDispatch c a p event mdiff s) := by
  unfold portDispatch at faulty ⊢
  split
  next type =>
    rw [type] at faulty
    exact bcDispatch_remains faulty
  next type =>
    rw [type] at faulty
    exact bcDispatch_remains faulty
  next type =>
    rw [type] at faulty
    exact tcDispatch_remains faulty
  next type =>
    rw [type] at faulty
    exact tcDispatch_remains faulty

/-- A dispatch that does not make the port UNCALIBRATED switches no physical clock. -/
theorem portDispatch_settled {event : FsmEvent} {mdiff : Bool}
    (settled : (updateOf c a p event mdiff s).next ≠ (s.ports p).state →
      (updateOf c a p event mdiff s).next ≠ .uncalibrated) :
    ((portDispatch c a p event mdiff s).ports p).state = (updateOf c a p event mdiff s).next := by
  have boundary : ((bcDispatch c a p event mdiff s).ports p).state =
      (updateOf c a p event mdiff s).next := by
    rw [bcDispatch_eq]
    dsimp only
    split
    next switches =>
      simp only [Bool.and_eq_true, decide_eq_true_eq, bcTransition_changed, bcTransition_state,
        portUpdate_changed] at switches
      exact absurd switches.2 (settled switches.1.1)
    next => exact bcTransition_state
  unfold portDispatch
  split
  · exact boundary
  · exact boundary
  · exact tcDispatch_state _
  · exact tcDispatch_state _

end FaultTypes

/-! ## Steps -/

section Steps

variable {c : Clock} {a : Answers} {s t : ClockState} {p : Nat}

/-- A port that is not stranded comes to that by a fault only. -/
theorem Effects.stranded {g : Guards} (effects : Effects c a g s t) (spared : ¬g.faults p)
    (elsewhere : p ≠ g.here) (sound : ¬Stranded s p) : ¬Stranded t p := by
  apply effects.keeps sound
  intro s t effect sound stranded
  apply sound
  have frame := effect.port p
  refine ⟨?_, ?_, ?_⟩
  · rcases frame.state with same | moves
    · rw [← same]
      exact stranded.faulty
    · exact absurd (moves.fault stranded.faulty) spared
  · rw [← frame.linkStatus elsewhere]
    exact stranded.up
  · rw [← frame.faultArmed]
    exact stranded.unarmed

/-- A port that is left alone is stranded if it was. -/
theorem Stranded.congr (stranded : Stranded s p) (same : t.ports p = s.ports p) :
    Stranded t p := by
  refine ⟨?_, ?_, ?_⟩ <;> rw [same]
  · exact stranded.faulty
  · exact stranded.up
  · exact stranded.unarmed

/-- Guards under which a network port faults only for a given reason. -/
def Guards.blaming (c : Clock) (before : ClockState) (here : Nat) (reason : Nat → Prop) : Guards :=
  { Guards.free before here with faults := fun q => q ∈ c.ports → reason q }

/-- At the beginning of a step the port is as it was before the step. -/
theorem fresh_blaming {here : Nat} {reason : Nat → Prop} (working : Working c s) :
    Fresh (Guards.blaming c s here reason) s := by
  rintro q idle mine
  rcases idle with idle | idle
  · exact absurd idle (working q (Or.inr mine)).1
  · exact absurd idle (working q (Or.inr mine)).2

/-- The descriptor of one port strands another only if a message cannot be passed on to it. -/
theorem handleDescriptor_stranded {q : Nat} {fd : Descriptor} (working : Working c s)
    (mine : p ∈ c.ports) (elsewhere : p ≠ q) (sound : ¬Stranded s p) (passes : ¬Blocks c a p) :
    ¬Stranded (handleDescriptor c a q fd s) p := by
  have allows : AllowsStep c a
      (Guards.blaming c s q fun r => r = q ∨ Blocks c a r) fd := by
    refine ⟨⟨⟨?switches, ?egress, ?monitor, ?slips⟩, fun _ _ _ _ => trivial, ?delivers⟩, ?faulted,
      fresh_blaming working⟩
    case switches => exact fun _ _ => Or.inl rfl
    case egress => exact fun relays r _ blocked _ => Or.inr ⟨relays, blocked⟩
    case faulted => exact fun _ _ => Or.inl rfl
    all_goals
      intros
      trivial
  have work := handleDescriptor_works allows rfl
  apply work.effects.stranded _ elsewhere sound
  intro blamed
  rcases blamed mine with here | blocked
  · exact elsewhere here
  · exact passes blocked

/-- A descriptor of the local socket strands a port only by a message that it cannot send on. -/
theorem handleUds_stranded {fd : Descriptor} (mine : p ∈ c.ports) (sound : ¬Stranded s p)
    (passes : ¬Blocks c a p) : ¬Stranded (handleUds c a fd s) p := by
  have allows : AllowsDescriptor c a (Guards.blaming c s 0 fun r => Blocks c a r) fd := by
    refine ⟨⟨?switches, ?egress, ?monitor, ?slips⟩, fun _ _ _ _ => trivial, ?delivers⟩
    case switches => exact fun _ uds => absurd uds (zero_not_mem_ports c)
    case egress => exact fun relays r _ blocked _ => ⟨relays, blocked⟩
    all_goals
      intros
      trivial
  have work := handleUds_works allows rfl rfl
  apply work.effects.stranded (fun blamed => passes (blamed mine)) _ sound
  intro uds
  rw [uds] at mine
  exact zero_not_mem_ports c mine

/-- The fault timer of another port is set. -/
theorem armFault_elsewhere {q : Nat} (elsewhere : p ≠ q) :
    (armFault c q s).ports p = s.ports p := by
  unfold armFault
  exact withPort_other elsewhere _

/-- A descriptor of its own leaves a port stranded only if the fault is not attended to. -/
theorem armFault_stranded {event : FsmEvent} {mdiff : Bool}
    (faulty : ((portDispatch c a p event mdiff s).ports p).state = .faulty)
    (stranded : Stranded (armFault c p (portDispatch c a p event mdiff s)) p) :
    Unattended c a p
      ((armFault c p (portDispatch c a p event mdiff s)).ports p).lastFaultType := by
  have remains := portDispatch_remains faulty
  have unarmed := stranded.unarmed
  unfold armFault at unarmed ⊢
  rw [withPort_same] at unarmed ⊢
  refine ⟨unarmed, ?_⟩
  intro cleared
  rcases remains with failed | stays
  · exact failed
  · rw [stays] at cleared
    cases cleared

/-- Once its timer has expired, a port is stranded only if it cannot be initialised. -/
theorem handleFaultTimer_stranded (working : Working c s) (mine : p ∈ c.ports)
    (stranded : Stranded (handleFaultTimer c a p s) p) : a.starts p s.asked = false := by
  have asked : (disarmFault p s).asked = s.asked := rfl
  have state : ((disarmFault p s).ports p).state = (s.ports p).state := by
    unfold disarmFault
    rw [withPort_same]
  have work := working p (Or.inr mine)
  rw [← state] at work
  unfold handleFaultTimer at stranded
  rw [← asked]
  generalize disarmFault p s = t at work stranded ⊢
  dsimp only at stranded
  split at stranded
  next =>
    by_cases faulty : (t.ports p).state = .faulty
    · have next : (updateOf c a p .faultCleared false t).next =
          if a.starts p t.asked then .listening else .faulty := by
        unfold updateOf portStateUpdate
        simp [faulty, machine_faultCleared, machine_initializing]
      have settled : ((portDispatch c a p .faultCleared false t).ports p).state =
          (updateOf c a p .faultCleared false t).next := by
        apply portDispatch_settled
        intro _
        rw [next]
        split <;> simp
      have ended := stranded.faulty
      rw [settled, next] at ended
      cases starts : a.starts p t.asked
      · rfl
      · rw [starts] at ended
        cases ended
    · exfalso
      have still : (updateOf c a p .faultCleared false t).next = (t.ports p).state := by
        unfold updateOf portStateUpdate Clock.machine
        cases state : (t.ports p).state with
        | faulty => exact absurd state faulty
        | initializing => exact absurd state work.1
        | disabled => exact absurd state work.2
        | _ => split <;> rfl
      have settled : ((portDispatch c a p .faultCleared false t).ports p).state =
          (updateOf c a p .faultCleared false t).next :=
        portDispatch_settled fun differ => absurd still differ
      have ended := stranded.faulty
      rw [settled, still] at ended
      exact faulty ended
  next down => exact absurd stranded.up down

/-- A state decision strands a port only by a switch of the physical clock that fails. -/
theorem recommend_stranded {freshBest : Bool} {q : Nat} (working : Working c s)
    (mine : p ∈ c.ports) (sound : ¬Stranded s p) (switches : ¬∃ tick, a.switches p tick = false) :
    ¬Stranded (recommend c a freshBest s q) p := by
  have fresh : Fresh (Guards.blaming c s 0 fun r => ∃ tick, a.switches r tick = false) s :=
    fresh_blaming working
  obtain ⟨_, _, _, _, _, _, same⟩ := informed_state (c := c) (bmcStateDecision c q s) s
  have work : Works c a _ _ (recommend c a freshBest s q) :=
    recommend_works fresh (fun _ => trivial) (fun failed _ _ => failed)
  apply work.effects.stranded (fun blamed => switches (blamed mine))
  · intro uds
    rw [uds] at mine
    exact zero_not_mem_ports c mine
  · intro stranded
    exact sound (stranded.congr (by rw [same]))

/-- No other step strands a port. -/
theorem pollStep_stranded {s : PollState} {step : PollStep} (working : Working c s.clock)
    (mine : p ∈ c.ports) (sound : ¬Stranded s.clock p) (harmless : ¬step.Strands c p s) :
    ¬Stranded (pollStep c s step).clock p := by
  cases step with
  | enter q => exact sound
  | descriptor q fd a =>
    unfold pollStep
    dsimp only
    split
    next => exact sound
    next clear =>
    by_cases here : q = p
    · subst here
      split
      next faulty =>
        intro stranded
        refine harmless (Or.inl ⟨rfl, ?_⟩)
        have after : (pollStep c s (.descriptor q fd a)).clock =
            armFault c q (handleDescriptor c a q fd s.clock) := by
          unfold pollStep
          dsimp only
          rw [if_neg clear, if_pos faulty]
        rw [after]
        exact armFault_stranded faulty stranded
      next working => exact fun stranded => working stranded.faulty
    · have elsewhere : p ≠ q := fun same => here same.symm
      have passed : ¬Stranded (handleDescriptor c a q fd s.clock) p :=
        handleDescriptor_stranded working mine elsewhere sound
          fun blocked => harmless (Or.inr ⟨here, blocked⟩)
      split
      · intro stranded
        exact passed (stranded.congr (armFault_elsewhere elsewhere).symm)
      · exact passed
  | faultTimer q a =>
    by_cases here : q = p
    · subst here
      intro stranded
      exact harmless ⟨rfl, handleFaultTimer_stranded working mine stranded⟩
    · have elsewhere : p ≠ q := fun same => here same.symm
      have same : (handleFaultTimer c a q s.clock).ports p = s.clock.ports p := by
        have disarmed : (disarmFault q s.clock).ports p = s.clock.ports p :=
          withPort_other elsewhere _
        unfold handleFaultTimer
        dsimp only
        split
        · exact (portDispatch_elsewhere elsewhere _ _).trans disarmed
        · exact disarmed
      exact fun stranded => sound (stranded.congr same.symm)
  | uds fd a => exact handleUds_stranded mine sound harmless
  | decide a =>
    change ¬Stranded (handleDecision c a s.clock) p
    unfold handleDecision
    split
    · have began : ¬Stranded (decided c a s.clock).2 p := by
        obtain ⟨_, ports, _, _, _, _, _, each, same⟩ := decided_state (c := c) (a := a) s.clock
        obtain ⟨_, _, here⟩ := each p
        rw [same]
        intro stranded
        have faulty := stranded.faulty
        have up := stranded.up
        have unarmed := stranded.unarmed
        dsimp only at faulty up unarmed
        rw [here] at faulty up unarmed
        exact sound ⟨faulty, up, unarmed⟩
      have done := recommendations_keep working began fun q _ t working sound =>
        recommend_stranded working mine sound harmless
      exact fun stranded => done.2 (stranded.congr rfl)
    · exact sound

end Steps

/-! ## Runs -/

section Runs

variable {c : Clock} {a : Answers} {p : Nat}

/-- The ports whose initialisation succeeds are not FAULTY when the first poll begins. -/
theorem clockStart_stranded {start : StartUp}
    (starts : ¬∃ tick, start.answers.starts p tick = false) :
    ¬Stranded (start.state c).clock p := by
  have walk : ∀ (list : List Nat) (t : ClockState), (t.ports p).state ≠ .faulty →
      ((list.foldl (fun s p => portDispatch c start.answers p .initializeEvent false s) t).ports
        p).state ≠ .faulty := by
    intro list
    induction list with
    | nil => exact fun _ sound => sound
    | cons q rest inductionHypothesis =>
      intro t sound
      apply inductionHypothesis
      by_cases here : p = q
      · subst here
        have next := updateOf_initialize (c := c) (a := start.answers) (s := t) p
        have success : start.answers.starts p t.asked = true := by
          by_contra failed
          exact starts ⟨t.asked, by simpa using failed⟩
        rw [if_pos success] at next
        rw [portDispatch_settled (by simp [next]), next]
        simp
      · rw [portDispatch_elsewhere here]
        exact sound
  intro stranded
  exact walk (c.ports ++ [0]) _ (by simp [clockOpen, clockUpdateGrandmaster, portOpen])
    stranded.faulty

/-- A clock works at every moment of a run. -/
theorem stateAfter_working (start : StartUp) (polls : List Poll) (count : Nat) :
    Working c (stateAfter c start polls count).clock :=
  stateAfter_keeps (fun s => Working c s.clock) polls count (clockStart_working _)
    fun _ step _ _ working => pollStep_working step working

/-- A network port that is FAULTY at any moment of any run, with its link up and no fault timer set,
has been so since the start, where it could not be initialised, or since one step of the run that can
strand it: just before that step it was not so, and after it always.

Proof: take the last moment at which the port was not stranded. The step made there strands it, and
every step that does is of the list. -/
theorem stranded_cause {start : StartUp} {polls : List Poll} {count : Nat} (mine : p ∈ c.ports)
    (stranded : Stranded (stateAfter c start polls count).clock p) :
    ((∀ moment ≤ count, Stranded (stateAfter c start polls moment).clock p) ∧
      ∃ tick, start.answers.starts p tick = false) ∨
    ∃ last < count, ∃ step, (polls.flatMap (Poll.steps c))[last]? = some step ∧
      ¬Stranded (stateAfter c start polls last).clock p ∧
      (∀ moment, last < moment → moment ≤ count →
        Stranded (stateAfter c start polls moment).clock p) ∧
      step.Strands c p (stateAfter c start polls last) := by
  rcases held_since (fun moment => Stranded (stateAfter c start polls moment).clock p) stranded with
    always | ⟨last, earlier, sound, since⟩
  · refine Or.inl ⟨always, ?_⟩
    by_contra starts
    exact clockStart_stranded starts (always 0 (Nat.zero_le count))
  · right
    have next := since (last + 1) (Nat.lt_succ_self last) earlier
    unfold stateAfter at next
    rw [List.take_add_one, List.foldl_append] at next
    cases there : (polls.flatMap (Poll.steps c))[last]? with
    | none =>
      rw [there] at next
      exact absurd next sound
    | some step =>
      rw [there] at next
      refine ⟨last, earlier, step, there, sound, since, ?_⟩
      by_contra harmless
      exact pollStep_stranded (stateAfter_working start polls last) mine sound harmless next

/-- A transparent clock with two ports. -/
def relayClock : Clock := { smallClock with type := .e2e }

/-- A Sync comes in at the first port and cannot be passed on to the second. -/
def blockedPoll : Poll :=
  pollOf 1 [⟨.event, { received := .message { PtpMessage.blank with type := .sync }
                       egress := fun p _ => p != 2 }⟩]

/-- A run in which a Sync of another port cannot be sent on. -/
theorem stranded_cause_blocked :
    ((∀ moment ≤ 2, Stranded (stateAfter relayClock plainStart [blockedPoll] moment).clock 2) ∧
      ∃ tick, plainStart.answers.starts 2 tick = false) ∨
    ∃ last < 2, ∃ step, ([blockedPoll].flatMap (Poll.steps relayClock))[last]? = some step ∧
      ¬Stranded (stateAfter relayClock plainStart [blockedPoll] last).clock 2 ∧
      (∀ moment, last < moment → moment ≤ 2 →
        Stranded (stateAfter relayClock plainStart [blockedPoll] moment).clock 2) ∧
      step.Strands relayClock 2 (stateAfter relayClock plainStart [blockedPoll] last) := by
  have faulty : ((stateAfter relayClock plainStart [blockedPoll] 2).clock.ports 2).state =
      .faulty := by decide +kernel
  have up : ((stateAfter relayClock plainStart [blockedPoll] 2).clock.ports 2).linkStatus.up =
      true := by decide +kernel
  have unarmed : ((stateAfter relayClock plainStart [blockedPoll] 2).clock.ports 2).faultArmed =
      false := by decide +kernel
  exact stranded_cause (by decide) ⟨faulty, up, unarmed⟩

end Runs

end LinuxPtp
