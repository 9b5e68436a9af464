import LinuxPtp.DispatchEffects
import LinuxPtp.ServoState

/-!
# The effects of a Sync or Follow_Up

What a port sends and how it synchronises, as sequences of effects. What the guards have to allow
depends on the answers of the environment and on the state before the step.

What the servo will answer to a pair can be told before it is handled. So the condition that a
pair is not put twice can be stated on the state before the step, and is carried to the place
where the pair is completed.
-/

namespace LinuxPtp

open RefPool

/-! ## The beginning of a step -/

section Meeting

variable {b s : ClockState} {p q : Nat}

/-- At its beginning a step has changed nothing. -/
protected theorem Meets.refl (b : ClockState) (p : Nat) : Meets b b p :=
  ⟨⟨b.msgs, b.hands, b.asked, b.log, b.ports, rfl⟩, rfl⟩

/-- The port is in the state it was in. -/
theorem Meets.state (meets : Meets b s p) : (s.ports p).state = (b.ports p).state := by
  rw [← meets.port]

/-- The port has the best record that it had. -/
theorem Meets.bestForeign (meets : Meets b s p) :
    (s.ports p).bestForeign = (b.ports p).bestForeign := by
  rw [← meets.port]
  rfl

/-- What is in hand or noted does not count. -/
theorem Meets.aside (meets : Meets b s p) (msgs : Pool PtpMessage) (hands : List Nat) (asked : Nat)
    (log : List Observation) :
    Meets b { s with msgs := msgs, hands := hands, asked := asked, log := log } p := by
  obtain ⟨⟨_, _, _, _, ports, same⟩, port⟩ := meets
  constructor
  · exact ⟨msgs, hands, asked, log, s.ports, by rw [same]⟩
  · exact port

/-- An answer is asked for. -/
theorem Meets.ask (meets : Meets b s p) : Meets b s.ask p := meets.aside _ _ _ _

/-- A message is obtained. -/
theorem Meets.obtain (meets : Meets b s p) (msg : PtpMessage) : Meets b (s.obtain msg).2 p :=
  meets.aside _ _ _ _

/-- A message in the pool is written. -/
theorem Meets.amend (meets : Meets b s p) (cell : Nat) (msg : PtpMessage) :
    Meets b (s.amend cell msg) p := meets.aside _ _ _ _

/-- Something is noted. -/
theorem Meets.note (meets : Meets b s p) (what : Observation) : Meets b (s.note what) p :=
  meets.aside _ _ _ _

/-- A message is given back. -/
theorem Meets.release (meets : Meets b s p) (cell : Nat) : Meets b (s.release cell) p :=
  meets.aside _ _ _ _

/-- What any port keeps for its own running may change. -/
theorem Meets.running (meets : Meets b s p) (change : PortRunning → PortRunning) :
    Meets b (s.withRunning q change) p := by
  obtain ⟨⟨msgs, hands, asked, log, ports, same⟩, port⟩ := meets
  constructor
  · exact ⟨msgs, hands, asked, log, (s.withRunning q change).ports, by rw [same]; rfl⟩
  · by_cases here : p = q
    · subst here
      rw [withRunning_same]
      exact port
    · rw [ClockState.withRunning, withPort_other here]
      exact port

/-- Another port of a transparent clock may fault in the meantime. -/
theorem Meets.touched {c : Clock} {t : ClockState} (meets : Meets b s p) (differ : p ≠ q)
    (relays : c.relays) (touched : Touches c q s t) : Meets b t p := by
  obtain ⟨⟨msgs, hands, asked, log, ports, same⟩, port⟩ := meets
  obtain ⟨msgs', asked', servoState, realtime, changed, frame⟩ := touched.frame
  obtain ⟨servo, real⟩ := touched.servo relays
  constructor
  · refine ⟨msgs', s.hands, asked', s.log, t.ports, ?_⟩
    rw [frame] at servo real ⊢
    dsimp only at servo real
    rw [servo, real, same]
  · rw [frame]
    dsimp only
    rw [Function.update_of_ne differ]
    exact port

end Meeting

/-! ## What a descriptor needs -/

/-- The pair that a message completes. -/
def pairOf (c : Clock) (p : Nat) (m : PtpMessage) (s : ClockState) :
    Option (PtpMessage × PtpMessage) :=
  let port := s.ports p
  if !port.state.tracks then none
  else if s.parent.parentPortIdentity ≠ m.sourcePortIdentity then none
  else if m.type = .followUp then
    if (c.setup p).followUpInfo && !m.followUpInfo then none
    else if port.syfu = .haveSync ∧ sameSequence port m then
      port.lastSyncfup.map fun sync => (sync.msg, m)
    else none
  else if m.type = .sync then
    let m := (asymmetric c p ⟨0, m⟩).msg
    if c.oneStep m then none
    else if port.syfu = .haveFup ∧ fupSyncOk port m ∧ sameSequence port m then
      port.lastSyncfup.map fun fup => (m, fup.msg)
    else none
  else none

/-- The state that `clock_synchronize` returns for a pair. -/
def pairServo (c : Clock) (a : Answers) (sync fup : PtpMessage) (s : ClockState) :
    ServoState :=
  servoOf c a sync.hwts
    (fup.pdu + (correctionToTmv sync.correction + correctionToTmv fup.correction)) s

/-- What the guards have to allow while a descriptor is handled. -/
structure Allows (c : Clock) (a : Answers) (g : Guards) : Prop where
  switches : (∃ tick, a.switches g.here tick = false) → g.faults g.here
  egress : c.relays → ∀ q, q ≠ g.here → (∃ tick, a.egress q tick = false) → g.faults q
  monitor : ¬c.relays → ∀ msg, g.delivers msg → msg.type = .delayReq → portNsmReply c g.here msg →
    ∀ best, g.before.best = some best → (g.before.ports best.port).best.isSome →
      g.before.parent.parentPortIdentity.clockIdentity ≠ c.clockIdentity →
      (g.before.ports g.here).delayMechanism ≠ .p2p → g.takes best.port
  slips : ∀ msg, g.delivers msg → ∀ sync fup,
    pairOf c g.here msg g.before = some (sync, fup) →
    (g.before.ports g.here).state = .slave → c.type ≠ .p2p →
    pairServo c a sync fup g.before ≠ .locked → g.slips g.here

section Handlers

variable {c : Clock} {a : Answers} {g : Guards} {s : ClockState}

/-! ## Messages that a port sends -/

/-- Two messages that are allocated for the time of some work. -/
theorem Works.hand_two {t : ClockState} (first second : PtpMessage)
    (work : Works c a g ((s.obtain first).2.obtain second).2 t) :
    Works c a g s ((t.release (s.obtain first).1.cell).release
      ((s.obtain first).2.obtain second).1.cell) := by
  have hands : t.hands = ((s.obtain first).2.obtain second).1.cell ::
      (s.obtain first).1.cell :: s.hands := work.hands
  have obtained : Effects c a g s t :=
    ((Effect.effects (.obtain s first)).tail (.obtain _ second)).trans work.effects
  generalize ((s.obtain first).2.obtain second).1.cell = later at hands ⊢
  generalize (s.obtain first).1.cell = earlier at hands ⊢
  have both : (later :: earlier :: s.hands).erase earlier = later :: s.hands := by
    by_cases same : later = earlier
    · rw [same, List.erase_cons_head]
    · rw [List.erase_cons_tail (by simpa using same), List.erase_cons_head]
  have released : (t.release earlier).hands = later :: s.hands := by
    change t.hands.erase earlier = _
    rw [hands, both]
  constructor
  · apply (obtained.tail (.release t earlier _)).tail
    · apply Effect.release
      rw [released]
      exact List.mem_cons_self
    · rw [hands]
      simp
  · change (t.release earlier).hands.erase later = s.hands
    rw [released, List.erase_cons_head]

/-- A message is sent, which only asks for an answer. -/
theorem transmit_works (p : Nat) : Works c a g s (transmit a p s).2 := Works.ask

/-- An announce is obtained, sent and given back. -/
theorem portTxAnnounce_works (p : Nat) : Works c a g s (portTxAnnounce c a p s).2 := by
  unfold portTxAnnounce portCapable
  dsimp only
  split
  · exact Works.ask
  · apply Works.ask.trans
    apply Works.hand
    exact (Works.running p _).trans (transmit_works p)

/-- A Follow_Up is obtained, sent and given back. -/
theorem txFollowUp_works (p : Nat) : Works c a g s (txFollowUp c a p s).2 := by
  unfold txFollowUp
  split
  · exact Works.refl s
  · exact transmit_works p

/-- A Sync is sent, with a Follow_Up if the clock is a two-step one. -/
theorem portTxSync_works (p : Nat) : Works c a g s (portTxSync c a p s).2 := by
  unfold portTxSync portCapable
  dsimp only
  split
  · exact Works.ask
  split
  · exact Works.ask
  apply Works.ask.trans
  apply Works.hand_two
  apply (Works.running p _).trans
  apply (transmit_works p).trans
  split
  · exact Works.refl _
  split
  · exact Works.refl _
  · exact txFollowUp_works p

/-! ## Synchronisation -/

/-- An event that a port which follows a master takes without being put out of service. -/
theorem not_upsets {state : PortState} {event : FsmEvent} (follows : state.tracks)
    (mild : event ≠ .faultDetected ∧ event ≠ .initializeEvent ∧ event ≠ .powerup) :
    ¬Upsets state event := by
  rintro (fault | init | powerup | initializing | disabled)
  · exact mild.1 fault
  · exact mild.2.1 init
  · exact mild.2.2 powerup
  · rw [initializing] at follows
    cases follows
  · rw [disabled] at follows
    cases follows

/-- The synchronisation, and the event that the state of the servo puts to the port. -/
theorem portSynchronize_eq (p : Nat) (ingressTs originTs correction1 correction2 : Int)
    (t1From t2From : PortIdentity) :
    portSynchronize c a p ingressTs originTs correction1 correction2 t1From t2From s =
      let done := clockSynchronize c a p ingressTs
        (originTs + (correctionToTmv correction1 + correctionToTmv correction2)) t1From t2From
        (setTmo p .syncRxTimer s)
      match done.1 with
      | .unlocked => portDispatch c a p .synchronizationFault false done.2
      | .jump => dropPeerDelay .req p
          (flushDelayReq p (portDispatch c a p .synchronizationFault false done.2))
      | .locked => portDispatch c a p .masterClockSelected false done.2 := rfl

/-- The servo takes a sample. Its times must be of the parent, or of the half of a pair that the
port still keeps. -/
theorem portSynchronize_works (allows : Allows c a g)
    (ingressTs originTs correction1 correction2 : Int) (t1From t2From : PortIdentity)
    (follows : (s.ports g.here).state.tracks)
    (sources : ∀ source, source = t1From ∨ source = t2From →
      source = s.parent.parentPortIdentity ∨ (s.ports g.here).syfu ≠ .empty ∧
        ∃ last, (s.ports g.here).lastSyncfup = some last ∧ last.msg.sourcePortIdentity = source)
    (meets : Meets g.before s g.here) :
    Works c a g s (portSynchronize c a g.here ingressTs originTs correction1 correction2
      t1From t2From s) := by
  have timer : (setTmo g.here .syncRxTimer s).ports g.here =
      { s.ports g.here with running := ((setTmo g.here .syncRxTimer s).ports g.here).running } := by
    unfold setTmo
    rw [withRunning_same]
  have done (origin : Int) : Works c a g (setTmo g.here .syncRxTimer s) (clockSynchronize c a g.here
      ingressTs origin t1From t2From (setTmo g.here .syncRxTimer s)).2 := by
    apply Works.of_effect
    · apply Effect.synchronize
      · rw [timer]
        exact follows
      · rw [timer]
        exact sources
      · exact meets.running _
    · obtain ⟨_, _, _, _, _, same⟩ := timed_clockSynchronize (c := c) (a := a)
        (s := setTmo g.here .syncRxTimer s) g.here ingressTs origin t1From t2From
      rw [same]
  have dispatched (origin : Int) (event : FsmEvent) (known : event ≠ .designatedDisabled)
      (mild : event ≠ .faultDetected ∧ event ≠ .initializeEvent ∧ event ≠ .powerup)
      (other : event ≠ .rsSlave) :
      Works c a g s (portDispatch c a g.here event false (clockSynchronize c a g.here
        ingressTs origin t1From t2From (setTmo g.here .syncRxTimer s)).2) := by
    have still : ((clockSynchronize c a g.here ingressTs origin t1From t2From
        (setTmo g.here .syncRxTimer s)).2.ports g.here).state.tracks := by
      obtain ⟨_, _, _, _, _, same⟩ := timed_clockSynchronize (c := c) (a := a)
        (s := setTmo g.here .syncRxTimer s) g.here ingressTs origin t1From t2From
      rw [same]
      dsimp only
      rw [timer]
      exact follows
    apply ((Works.setTmo g.here _).trans (done origin)).trans
    apply portDispatch_works
    · exact known
    · exact fun upsets => absurd upsets (not_upsets still mild)
    · exact fun slave => absurd slave other
    · exact fun failed _ _ => allows.switches failed
  rw [portSynchronize_eq]
  dsimp only
  split
  · exact dispatched _ .synchronizationFault nofun ⟨nofun, nofun, nofun⟩ nofun
  · have lost := dispatched (originTs + (correctionToTmv correction1 + correctionToTmv correction2))
      .synchronizationFault nofun ⟨nofun, nofun, nofun⟩ nofun
    exact (lost.trans flushDelayReq_works).trans (dropPeerDelay_works .req)
  · exact dispatched _ .masterClockSelected nofun ⟨nofun, nofun, nofun⟩ nofun

/-- The states in which a port follows a master. -/
theorem PortState.tracks_iff {state : PortState} :
    state.tracks = true ↔ state = .uncalibrated ∨ state = .slave := by
  cases state <;> simp [PortState.tracks]

/-! ### The slot of the last Sync or Follow_Up -/

/-- The slot is left alone. -/
def Spares (p : Nat) (s t : ClockState) : Prop :=
  (t.ports p).syfu = (s.ports p).syfu ∧ (t.ports p).lastSyncfup = (s.ports p).lastSyncfup

/-- A half that is left by two steps is left by both. -/
theorem Spares.trans {p : Nat} {t u : ClockState} (first : Spares p s t) (second : Spares p t u) :
    Spares p s u := ⟨second.1.trans first.1, second.2.trans first.2⟩

/-- A change of a port that is not one of its pairs. -/
theorem spares_withPort {p : Nat} {change : Port → Port} (same : ∀ port, (change port).syfu =
    port.syfu ∧ (change port).lastSyncfup = port.lastSyncfup) :
    Spares p s (s.withPort p change) := by
  unfold Spares
  rw [withPort_same]
  exact same _

/-- What a port keeps for its own running. -/
theorem spares_running (p : Nat) (change : PortRunning → PortRunning) :
    Spares p s (s.withRunning p change) := spares_withPort fun _ => ⟨rfl, rfl⟩

/-- A timer is set. -/
theorem spares_setTmo (p : Nat) (fd : Descriptor) : Spares p s (setTmo p fd s) :=
  spares_running p _

/-- A loop of which every round leaves the slot alone. -/
theorem Spares.foldl {α : Type} {p : Nat} {step : ClockState → α → ClockState}
    (each : ∀ s item, Spares p s (step s item)) (items : List α) (s : ClockState) :
    Spares p s (items.foldl step s) := by
  induction items generalizing s with
  | nil => exact ⟨rfl, rfl⟩
  | cons item rest inductionHypothesis => exact (each s item).trans (inductionHypothesis _)

/-- All timers are cleared. -/
theorem spares_clrTimers (p : Nat) : Spares p s (clrTimers p s) :=
  Spares.foldl (fun _ _ => spares_running p _) _ s

/-- The requests are given up, and not the pair. -/
theorem spares_flushDelayReq (p : Nat) : Spares p s (flushDelayReq p s) := by
  apply Spares.foldl
  intro s m
  exact spares_withPort fun _ => ⟨rfl, rfl⟩

/-- A slot of the peer delay is cleared, and not the pair. -/
theorem spares_dropPeerDelay (slot : PeerSlot) (p : Nat) : Spares p s (dropPeerDelay slot p s) := by
  unfold dropPeerDelay
  cases (s.ports p).peerDelay slot with
  | none => exact ⟨rfl, rfl⟩
  | some m => exact spares_withPort fun _ => ⟨rfl, rfl⟩

/-- What the servo makes of a port that follows a master. -/
theorem updateOf_servo {p : Nat} (follows : (s.ports p).state.tracks) :
    updateOf c a p .synchronizationFault false s = { next := .uncalibrated } ∧
      updateOf c a p .masterClockSelected false s = { next := .slave } := by
  unfold updateOf Clock.machine
  cases state : (s.ports p).state <;> rw [state] at follows <;> try cases follows
  all_goals split <;> constructor <;> rfl

/-- An event that neither disables nor initialises the port. -/
theorem portUpdate_spares {p : Nat} {event : FsmEvent} {next : PortState}
    (update : updateOf c a p event false s = { next := next }) :
    Spares p s (portUpdate c a p event false s).2 := by
  have attempted : attempt c a p event false s = s.ask := by
    unfold attempt
    rw [update]
    rfl
  rw [portUpdate_eq, attempted]
  split
  · exact ⟨rfl, rfl⟩
  · obtain ⟨msgs, same⟩ := scratch_state (s.ask.withPort p fun port =>
      { port with state := (updateOf c a p event false s).next }) (c.newMessage p .management)
    rw [same]
    constructor <;> simp only [withPort_same, ClockState.ask]

section Quiet

variable {p : Nat} {event : FsmEvent} {next : PortState}

/-- A port that stays in its state or comes to SLAVE keeps the slot. -/
theorem bcTransition_spares (update : updateOf c a p event false s = { next := next })
    (quiet : next = (s.ports p).state ∨ next = .slave) :
    Spares p s (bcTransition c a p event false s).2 := by
  have updated := portUpdate_spares update
  have state := portUpdate_state c a p event false s
  have changed := portUpdate_changed c a p event false s
  rw [update] at state changed
  rw [bcTransition_eq]
  dsimp only at state changed ⊢
  split
  · exact updated
  next moved =>
    have slave : next = .slave := by
      rcases quiet with same | slave
      · exact absurd same (changed.mp (by simpa using moved))
      · exact slave
    have cleared := updated.trans (spares_clrTimers p)
    rw [state, slave]
    split
    · exact cleared.trans (spares_setTmo p _)
    · exact ((cleared.trans (spares_running p _)).trans (spares_setTmo p _)).trans
        (spares_setTmo p _)

/-- Such an event at an ordinary or boundary clock, to a state whose transition leaves the pair. -/
theorem bcDispatch_spares (update : updateOf c a p event false s = { next := next })
    (quiet : next = (s.ports p).state ∨ next = .slave) :
    Spares p s (bcDispatch c a p event false s) := by
  have moved := bcTransition_spares update quiet
  have changed := portUpdate_changed c a p event false s
  have state : ((bcTransition c a p event false s).2.ports p).state = next := by
    rw [bcTransition_state, update]
  rw [update] at changed
  rw [bcDispatch_eq]
  dsimp only
  rw [bcTransition_changed, state]
  split
  next condition =>
    simp only [Bool.and_eq_true, decide_eq_true_eq] at condition
    obtain ⟨⟨moves, _⟩, uncalibrated⟩ := condition
    rcases quiet with same | slave
    · exact absurd same (changed.mp moves)
    · rw [slave] at uncalibrated
      cases uncalibrated
  next => exact moved

/-- Such an event at a transparent clock. -/
theorem tcDispatch_spares {flush : Bool} (update : updateOf c a p event false s = { next := next })
    (quiet : next = (s.ports p).state ∨ next = .slave ∨ flush = false ∧ next = .uncalibrated) :
    Spares p s (tcDispatch c a flush p event false s) := by
  have updated := portUpdate_spares update
  have state := portUpdate_state c a p event false s
  have changed := portUpdate_changed c a p event false s
  rw [update] at state changed
  rw [tcDispatch_eq]
  dsimp only at state changed ⊢
  split
  · exact updated
  next moved =>
    have cleared := updated.trans (spares_clrTimers p)
    rw [state]
    rcases quiet with same | rfl | ⟨rfl, rfl⟩
    · exact absurd same (changed.mp (by simp_all))
    · exact cleared.trans (spares_setTmo p _)
    · exact cleared.trans (spares_setTmo p _)

/-- The servo leaves the slot alone unless a SLAVE loses its synchronisation. -/
theorem portDispatch_spares (follows : (s.ports p).state.tracks)
    (servo : event = .masterClockSelected ∨ event = .synchronizationFault ∧
      ((s.ports p).state = .uncalibrated ∨ c.type = .p2p)) :
    Spares p s (portDispatch c a p event false s) := by
  obtain ⟨lost, selected⟩ := updateOf_servo (c := c) (a := a) follows
  rcases servo with rfl | ⟨rfl, uncalibrated | relay⟩
  · unfold portDispatch
    split
    · exact bcDispatch_spares selected (Or.inr rfl)
    · exact bcDispatch_spares selected (Or.inr rfl)
    · exact tcDispatch_spares selected (Or.inr (Or.inl rfl))
    · exact tcDispatch_spares selected (Or.inr (Or.inl rfl))
  · unfold portDispatch
    split
    · exact bcDispatch_spares lost (Or.inl uncalibrated.symm)
    · exact bcDispatch_spares lost (Or.inl uncalibrated.symm)
    · exact tcDispatch_spares lost (Or.inl uncalibrated.symm)
    · exact tcDispatch_spares lost (Or.inl uncalibrated.symm)
  · unfold portDispatch
    rw [relay]
    exact tcDispatch_spares lost (Or.inr (Or.inr ⟨rfl, rfl⟩))

end Quiet

/-- The ports are none of the business of the servo. -/
theorem clockSynchronize_ports (p : Nat) (ingress origin : Int) (t1From t2From : PortIdentity) :
    (clockSynchronize c a p ingress origin t1From t2From s).2.ports = s.ports := by
  obtain ⟨_, _, _, _, _, same⟩ := timed_clockSynchronize (c := c) (a := a) (s := s) p ingress
    origin t1From t2From
  rw [same]

/-- The half of a pair survives the sample made of it, unless the port is a slave and the servo is
not locked: then the port goes back to being UNCALIBRATED, which flushes the half. -/
theorem portSynchronize_spares {p : Nat} {ingressTs originTs correction1 correction2 : Int}
    (t1From t2From : PortIdentity) (follows : (s.ports p).state.tracks)
    (kept : (s.ports p).state = .uncalibrated ∨ c.type = .p2p ∨
      servoOf c a ingressTs
        (originTs + (correctionToTmv correction1 + correctionToTmv correction2)) s = .locked) :
    Spares p s (portSynchronize c a p ingressTs originTs correction1 correction2 t1From t2From
      s) := by
  have state : ((setTmo p .syncRxTimer s).ports p).state = (s.ports p).state := by
    unfold setTmo
    rw [withRunning_same]
  have returned := clockSynchronize_servo (c := c) (a := a) (s := setTmo p .syncRxTimer s) p
    ingressTs (originTs + (correctionToTmv correction1 + correctionToTmv correction2)) t1From t2From
  have ports := clockSynchronize_ports (c := c) (a := a) (s := setTmo p .syncRxTimer s) p
    ingressTs (originTs + (correctionToTmv correction1 + correctionToTmv correction2)) t1From t2From
  have same : servoOf c a ingressTs
      (originTs + (correctionToTmv correction1 + correctionToTmv correction2))
        (setTmo p .syncRxTimer s) =
      servoOf c a ingressTs
        (originTs + (correctionToTmv correction1 + correctionToTmv correction2)) s := rfl
  rw [same] at returned
  rw [portSynchronize_eq]
  dsimp only
  generalize clockSynchronize c a p ingressTs
    (originTs + (correctionToTmv correction1 + correctionToTmv correction2)) t1From t2From
    (setTmo p .syncRxTimer s) = done at returned ports ⊢
  have still : (done.2.ports p).state = (s.ports p).state := by rw [ports, state]
  have timed : Spares p s done.2 := by
    unfold Spares
    rw [ports]
    exact spares_setTmo p _
  have lost (unlocked : done.1 ≠ .locked) :
      Spares p s (portDispatch c a p .synchronizationFault false done.2) := by
    apply timed.trans
    apply portDispatch_spares
    · rw [still]
      exact follows
    · rw [still]
      rcases kept with uncalibrated | relay | locked
      · exact Or.inr ⟨rfl, Or.inl uncalibrated⟩
      · exact Or.inr ⟨rfl, Or.inr relay⟩
      · exact absurd (returned.trans locked) unlocked
  split
  next unlocked => exact lost (by simp [unlocked])
  next jump =>
    exact ((lost (by simp [jump])).trans (spares_flushDelayReq p)).trans
      (spares_dropPeerDelay .req p)
  next =>
    apply timed.trans
    apply portDispatch_spares
    · rw [still]
      exact follows
    · exact Or.inl rfl

/-! ### Sync and Follow_Up -/

/-- The half of a pair is given back, where there is one or a slip is allowed. -/
theorem putLast_works {p : Nat} (there : (s.ports p).syfu ≠ .empty ∨ g.slips p) :
    Works c a g s (putLast p s) := by
  apply Works.of_effect (.putLast s p there)
  unfold putLast
  cases (s.ports p).lastSyncfup <;> rfl

/-- A pair goes to the servo, and then its half is given back. If the sample has flushed the half on
the way, it is given back twice; that is what has to be allowed as a slip. -/
theorem completePair_works (allows : Allows c a g) {last m : Stored} {sync fup : PtpMessage}
    (there : (s.ports g.here).lastSyncfup = some last)
    (same : last.msg.sequenceId = m.msg.sequenceId)
    (source : s.parent.parentPortIdentity = m.msg.sourcePortIdentity)
    (follows : (s.ports g.here).state.tracks)
    (kinds : (s.ports g.here).syfu = .haveSync ∧ m.msg.type = .followUp ∧ sync = last.msg ∧
        fup = m.msg ∨
      (s.ports g.here).syfu = .haveFup ∧ m.msg.type = .sync ∧ sync = m.msg ∧ fup = last.msg)
    (slips : (s.ports g.here).state = .slave → c.type ≠ .p2p → pairServo c a sync fup s ≠ .locked →
      g.slips g.here)
    (meets : Meets g.before s g.here) :
    Works c a g s (completePair c a g.here sync fup s) := by
  have noted : Works c a g s (s.note (.paired sync fup)) :=
    Works.of_effect (.pair s g.here last m there same source follows sync fup kinds) rfl
  have occupied : (s.ports g.here).syfu ≠ .empty := by
    rcases kinds with ⟨kind, _⟩ | ⟨kind, _⟩ <;> simp [kind]
  unfold completePair
  apply (noted.trans _).trans
  · apply putLast_works
    by_cases slip : (s.ports g.here).state = .slave ∧ c.type ≠ .p2p ∧
        pairServo c a sync fup s ≠ .locked
    · exact Or.inr (slips slip.1 slip.2.1 slip.2.2)
    · have kept : (s.ports g.here).state = .uncalibrated ∨ c.type = .p2p ∨
          pairServo c a sync fup (s.note (.paired sync fup)) = .locked := by
        rcases PortState.tracks_iff.mp follows with uncalibrated | slave
        · exact Or.inl uncalibrated
        · right
          by_contra neither
          rw [not_or] at neither
          exact slip ⟨slave, neither⟩
      have spared := portSynchronize_spares (s := s.note (.paired sync fup)) (a := a)
        fup.sourcePortIdentity sync.sourcePortIdentity follows kept
      left
      rw [spared.1]
      exact occupied
  · apply portSynchronize_works allows
    · exact follows
    · intro origin cases
      rcases kinds with ⟨_, _, rfl, rfl⟩ | ⟨_, _, rfl, rfl⟩
      · rcases cases with rfl | rfl
        · exact Or.inl source.symm
        · exact Or.inr ⟨occupied, last, there, rfl⟩
      · rcases cases with rfl | rfl
        · exact Or.inr ⟨occupied, last, there, rfl⟩
        · exact Or.inl source.symm
    · exact meets.note _

/-- A Sync or Follow_Up of the parent is kept as the half of a pair. -/
theorem keepLast_works {p : Nat} {kind : SyfuState} {m : Stored} (held : m.cell ∈ s.hands)
    (free : (s.ports p).syfu = .empty) (follows : (s.ports p).state.tracks)
    (source : s.parent.parentPortIdentity = m.msg.sourcePortIdentity)
    (kinds : kind = .haveSync ∧ m.msg.type = .sync ∨ kind = .haveFup ∧ m.msg.type = .followUp) :
    Works c a g s (keepLast p kind m s) :=
  Works.of_effect (.keepLast s p kind m held free follows source kinds) rfl

/-- What is left of the port when the slot is emptied. -/
theorem putLast_port (p : Nat) (s : ClockState) :
    (putLast p s).ports p = { s.ports p with syfu := .empty } := by
  unfold putLast
  dsimp only
  rw [withPort_same]
  split <;> rfl

/-- A message of either kind takes the place of the one in the slot. -/
theorem replaceLast_works {p : Nat} {kind : SyfuState} {m : Stored} (held : m.cell ∈ s.hands)
    (occupied : (s.ports p).syfu ≠ .empty) (follows : (s.ports p).state.tracks)
    (source : s.parent.parentPortIdentity = m.msg.sourcePortIdentity)
    (kinds : kind = .haveSync ∧ m.msg.type = .sync ∨ kind = .haveFup ∧ m.msg.type = .followUp) :
    Works c a g s (keepLast p kind m (putLast p s)) := by
  have emptied : Works c a g s (putLast p s) := putLast_works (Or.inl occupied)
  have parent : (putLast p s).parent = s.parent := by
    unfold putLast
    cases (s.ports p).lastSyncfup <;> rfl
  apply emptied.trans
  apply keepLast_works
  · rw [emptied.hands]
    exact held
  · rw [putLast_port]
  · rw [putLast_port]
    exact follows
  · rw [parent]
    exact source
  · exact kinds

/-- A Sync that is no partner of the half replaces it. -/
theorem syncMismatch_works {p : Nat} {m : Stored} (held : m.cell ∈ s.hands)
    (follows : (s.ports p).state.tracks)
    (source : s.parent.parentPortIdentity = m.msg.sourcePortIdentity) (type : m.msg.type = .sync) :
    Works c a g s (portSyfufsm c a p .syncMismatch m s) := by
  unfold portSyfufsm
  cases kind : (s.ports p).syfu with
  | empty => exact keepLast_works held kind follows source (Or.inl ⟨rfl, type⟩)
  | haveSync | haveFup =>
    exact replaceLast_works held (by simp [kind]) follows source (Or.inl ⟨rfl, type⟩)

/-- A Follow_Up that is no partner of the half replaces it. -/
theorem fupMismatch_works {p : Nat} {m : Stored} (held : m.cell ∈ s.hands)
    (follows : (s.ports p).state.tracks)
    (source : s.parent.parentPortIdentity = m.msg.sourcePortIdentity)
    (type : m.msg.type = .followUp) :
    Works c a g s (portSyfufsm c a p .fupMismatch m s) := by
  unfold portSyfufsm
  cases kind : (s.ports p).syfu with
  | empty => exact keepLast_works held kind follows source (Or.inr ⟨rfl, type⟩)
  | haveSync | haveFup =>
    exact replaceLast_works held (by simp [kind]) follows source (Or.inr ⟨rfl, type⟩)

/-- What completes a pair depends on nothing that changes before the message is handled. -/
theorem Meets.pairOf {b : ClockState} {p : Nat} (meets : Meets b s p) (m : PtpMessage) :
    pairOf c p m s = pairOf c p m b := by
  obtain ⟨⟨_, _, _, _, _, same⟩, port⟩ := meets
  have parent : s.parent = b.parent := by rw [same]
  unfold LinuxPtp.pairOf
  rw [← port, parent]
  rfl

/-- What the servo says to a pair depends on nothing that has changed since the step began. -/
theorem Meets.pairServo {b : ClockState} {p : Nat} (meets : Meets b s p) (sync fup : PtpMessage) :
    pairServo c a sync fup s = pairServo c a sync fup b := by
  obtain ⟨⟨_, _, _, _, _, same⟩, _⟩ := meets
  rw [same]
  rfl

/-- The pair that a message completes may be released twice only where the guards allow it. -/
theorem Allows.slip (allows : Allows c a g) {msg : PtpMessage} (received : g.delivers msg)
    (meets : Meets g.before s g.here) {sync fup : PtpMessage}
    (pair : pairOf c g.here msg s = some (sync, fup)) (slave : (s.ports g.here).state = .slave)
    (type : c.type ≠ .p2p) (servo : pairServo c a sync fup s ≠ .locked) : g.slips g.here := by
  apply allows.slips msg received sync fup
  · rw [← meets.pairOf]
    exact pair
  · rw [← meets.state]
    exact slave
  · exact type
  · rw [← meets.pairServo]
    exact servo

/-- A Follow_Up from the parent, at a port that follows it: it completes the half, or is kept. -/
theorem processFollowUp_works (allows : Allows c a g) {m : Stored} (held : m.cell ∈ s.hands)
    (type : m.msg.type = .followUp) (received : g.delivers m.msg)
    (meets : Meets g.before s g.here) : Works c a g s (processFollowUp c a g.here m s) := by
  unfold processFollowUp
  split
  next => exact Works.refl s
  next tracks =>
    have follows : (s.ports g.here).state.tracks = true := by simpa using tracks
    split
    next => exact Works.refl s
    next parent =>
      have source := not_not.mp parent
      split
      next => exact Works.refl s
      next info =>
        split
        next matching =>
          obtain ⟨kind, sequence⟩ := matching
          unfold portSyfufsm
          rw [kind]
          dsimp only
          split
          next => exact Works.refl s
          next last there =>
            have same : last.msg.sequenceId = m.msg.sequenceId := by
              simpa [sameSequence, there] using sequence
            have pair : pairOf c g.here m.msg s = some (last.msg, m.msg) := by
              unfold pairOf
              simp only [follows, Bool.not_true, Bool.false_eq_true, if_false, parent, type, if_true,
                info, kind, sequence, and_self, there, Option.map_some]
            exact completePair_works allows there same source follows
              (Or.inl ⟨kind, type, rfl, rfl⟩) (allows.slip received meets pair) meets
        next => exact fupMismatch_works held follows source type

/-- A message in the pool is written. -/
theorem amend_works (cell : Nat) (msg : PtpMessage) : Works c a g s (s.amend cell msg) :=
  Works.of_effect (.amend s cell msg) rfl

/-- The part of `process_sync` behind the checks. -/
theorem acceptedSync_works (allows : Allows c a g) {m : Stored}
    (held : (asymmetric c g.here m).cell ∈ s.hands) (type : m.msg.type = .sync)
    (received : g.delivers m.msg) (follows : (s.ports g.here).state.tracks = true)
    (source : s.parent.parentPortIdentity = m.msg.sourcePortIdentity)
    (meets : Meets g.before s g.here) {sync : Stored} (adjusted : sync = asymmetric c g.here m) :
    Works c a g s (if c.oneStep sync.msg then
        flushLastSync g.here (portSynchronize c a g.here sync.msg.hwts sync.msg.pdu
          sync.msg.correction 0 sync.msg.sourcePortIdentity sync.msg.sourcePortIdentity s)
      else if (s.ports g.here).syfu = .haveFup ∧ fupSyncOk (s.ports g.here) sync.msg ∧
          sameSequence (s.ports g.here) sync.msg then
        portSyfufsm c a g.here .syncMatch sync s
      else portSyfufsm c a g.here .syncMismatch sync s) := by
  subst adjusted
  have kept : (asymmetric c g.here m).msg.type = .sync := type
  have again : s.parent.parentPortIdentity = (asymmetric c g.here m).msg.sourcePortIdentity :=
    source
  split
  next oneStep =>
    refine Works.trans (portSynchronize_works allows _ _ _ _ _ _ follows ?_ meets)
      flushLastSync_works
    rintro origin (rfl | rfl)
    · exact Or.inl again.symm
    · exact Or.inl again.symm
  next twoStep =>
    split
    next matching =>
      obtain ⟨kind, order, sequence⟩ := matching
      unfold portSyfufsm
      rw [kind]
      dsimp only
      split
      next => exact Works.refl s
      next last there =>
        have same : last.msg.sequenceId = (asymmetric c g.here m).msg.sequenceId := by
          simpa [sameSequence, there] using sequence
        have pair : pairOf c g.here m.msg s = some ((asymmetric c g.here m).msg, last.msg) := by
          have adjusted : (asymmetric c g.here ⟨0, m.msg⟩).msg = (asymmetric c g.here m).msg := rfl
          unfold pairOf
          simp [follows, source, type, adjusted, twoStep, kind, order, sequence, there]
        exact completePair_works allows there same again follows (Or.inr ⟨kind, kept, rfl, rfl⟩)
          (allows.slip received meets pair) meets
    next => exact syncMismatch_works held follows again kept

/-- A Sync from the parent, which may also be a sample by itself. -/
theorem processSync_works (allows : Allows c a g) {m : Stored} (held : m.cell ∈ s.hands)
    (type : m.msg.type = .sync) (received : g.delivers m.msg)
    (meets : Meets g.before s g.here) : Works c a g s (processSync c a g.here m s) := by
  unfold processSync
  split
  next => exact Works.refl s
  next tracks =>
    split
    next => exact Works.refl s
    next parent =>
      have work := (Works.running (c := c) (a := a) (g := g) (s := s) g.here fun running =>
        { running with logSyncInterval := m.msg.logMessageInterval }).trans
          (amend_works (asymmetric c g.here m).cell (asymmetric c g.here m).msg)
      have met := (meets.running (q := g.here) fun running =>
        { running with logSyncInterval := m.msg.logMessageInterval }).amend
          (asymmetric c g.here m).cell (asymmetric c g.here m).msg
      apply work.trans
      have still : (((s.withRunning g.here fun running =>
          { running with logSyncInterval := m.msg.logMessageInterval }).amend
            (asymmetric c g.here m).cell (asymmetric c g.here m).msg).ports g.here).state.tracks := by
        rw [met.state, ← meets.state]
        simpa using tracks
      have inHand := work.hands.symm ▸ held
      exact acceptedSync_works allows inHand type received still (not_not.mp parent) met rfl

end Handlers

end LinuxPtp
