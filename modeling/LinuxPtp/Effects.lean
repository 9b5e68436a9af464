import LinuxPtp.ClockPoll
import Mathlib.Logic.Relation

/-!
# What a handler can do

Every handler is a sequence of few kinds of effects on the state. Each kind comes with what is
known when it occurs, so that an invariant needs to be checked for the kinds of effects only and
not for every handler. What is known refers to the state before the step.

The guards say what is known when a handler runs: which ports may be disabled, which may come to
follow, whose records may be read and what may be delivered. They are chosen by each invariant to
be as weak as it can use, and the lemmas about handlers are for all of them.
-/

namespace LinuxPtp

open RefPool

/-! ## Elementary changes -/

section Changes

variable {s : ClockState} {p q : Nat}

@[simp] theorem withPort_same (change : Port → Port) :
    (s.withPort p change).ports p = change (s.ports p) := Function.update_self ..

theorem withPort_other (differ : q ≠ p) (change : Port → Port) :
    (s.withPort p change).ports q = s.ports q := Function.update_of_ne differ ..

@[simp] theorem withRunning_same (change : PortRunning → PortRunning) :
    (s.withRunning p change).ports p =
      { s.ports p with running := change (s.ports p).running } := Function.update_self ..

end Changes

/-- `port_disable` gives up the foreign masters. -/
def abandon (p : Nat) (s : ClockState) : ClockState :=
  freeForeignMasters p (s.withPort p fun port => { port with best := none })

/-- Since the step began, nothing has changed in a port but what it keeps for its own running,
and nothing outside the ports but what is in hand and what was noted. -/
structure Meets (b s : ClockState) (p : Nat) : Prop where
  clock : ∃ msgs hands asked log ports, s = { b with
    msgs := msgs, hands := hands, asked := asked, log := log, ports := ports }
  port : { s.ports p with running := (b.ports p).running } = b.ports p

/-- What is known of a step. -/
structure Guards where
  /-- The state before it. -/
  before : ClockState
  /-- The port whose descriptor or message is handled. -/
  here : Nat
  /-- The ports that may be disabled. -/
  faults : Nat → Prop
  /-- The ports that may come to follow a master. -/
  follows : Nat → Prop
  /-- The ports of whose best foreign masters the first announce may be taken. -/
  takes : Nat → Prop
  /-- The ports on which the message of a pair may be put twice. -/
  slips : Nat → Prop
  /-- The messages that may be delivered to a handler. -/
  delivers : PtpMessage → Prop

section Effects

variable (c : Clock) (a : Answers) (g : Guards)

/-- The kinds of effects. -/
inductive Effect : ClockState → ClockState → Prop where
  | idle (s : ClockState) (asked : Nat) (running : Nat → PortRunning) (sde : Bool) :
    Effect s { s with
      asked := asked, sde := sde, ports := fun p => { s.ports p with running := running p } }
  | scratch (s : ClockState) (msg : PtpMessage) : Effect s (s.scratch msg)
  | obtain (s : ClockState) (msg : PtpMessage) : Effect s (s.obtain msg).2
  | release (s : ClockState) (cell : Nat) (held : cell ∈ s.hands) : Effect s (s.release cell)
  | amend (s : ClockState) (cell : Nat) (msg : PtpMessage) : Effect s (s.amend cell msg)
  | switched (s : ClockState) : Effect s { s with servoState := .unlocked, realtime := false }
  | putLast (s : ClockState) (p : Nat) (there : (s.ports p).syfu ≠ .empty ∨ g.slips p) :
    Effect s (putLast p s)
  | keepLast (s : ClockState) (p : Nat) (kind : SyfuState) (m : Stored)
    (held : m.cell ∈ s.hands) (free : (s.ports p).syfu = .empty)
    (follows : (s.ports p).state.tracks) (source : s.parent.parentPortIdentity =
      m.msg.sourcePortIdentity)
    (kinds : kind = .haveSync ∧ m.msg.type = .sync ∨ kind = .haveFup ∧ m.msg.type = .followUp) :
    Effect s (keepLast p kind m s)
  | dropDelayReq (s : ClockState) (p : Nat) (m : Stored) (there : m ∈ (s.ports p).delayReq) :
    Effect s (dropDelayReq p m s)
  | keepDelayReq (s : ClockState) (p : Nat) (m : Stored) (held : m.cell ∈ s.hands) :
    Effect s ((s.handOver m.cell).withPort p fun port =>
      { port with delayReq := m :: port.delayReq })
  | dropPeerDelay (s : ClockState) (slot : PeerSlot) (p : Nat) :
    Effect s (dropPeerDelay slot p s)
  | handPeerDelay (s : ClockState) (p : Nat) (m : Stored) (held : m.cell ∈ s.hands)
    (free : (s.ports p).peerDelay .req = none) (peers : (s.ports p).delayMechanism = .p2p) :
    Effect s (keepPeerDelay .req p m (s.handOver m.cell))
  | keepPeerDelay (s : ClockState) (slot : PeerSlot) (p : Nat) (m : Stored)
    (held : m.cell ∈ s.hands) (free : (s.ports p).peerDelay slot = none) (kind : slot ≠ .req) :
    Effect s (keepPeerDelay slot p m (s.get m.cell))
  | announce (s : ClockState) (m : Stored) (held : m.cell ∈ s.hands)
    (received : g.delivers m.msg) (type : m.msg.type = .announce) (meets : Meets g.before s g.here) :
    Effect s (processAnnounce c a g.here m s).2
  | clearBest (s : ClockState) : Effect s (clearBest g.here s)
  | abandon (s : ClockState) (p : Nat) (fault : g.faults p) : Effect s (abandon p s)
  | become (s : ClockState) (p : Nat) (next : PortState)
    (fault : next = .faulty → g.faults p) (started : next ≠ .initializing ∧ next ≠ .disabled)
    (follows : next.tracks → (s.ports p).state.tracks ∨ g.follows p) :
    Effect s (s.withPort p fun port => { port with state := next })
  | detectPeer (s : ClockState) (p : Nat) (auto : (s.ports p).delayMechanism = .auto) :
    Effect s (s.withPort p fun port => { port with delayMechanism := .p2p })
  | faultType (s : ClockState) (p : Nat) (type : FaultType) : Effect s (withFaultType p type s)
  | link (s : ClockState) (status : LinkStatus) :
    Effect s (s.withPort g.here fun port => { port with linkStatus := status })
  | pair (s : ClockState) (p : Nat) (last m : Stored) (there : (s.ports p).lastSyncfup = some last)
    (same : last.msg.sequenceId = m.msg.sequenceId)
    (source : s.parent.parentPortIdentity = m.msg.sourcePortIdentity)
    (follows : (s.ports p).state.tracks) (sync fup : PtpMessage)
    (kinds : (s.ports p).syfu = .haveSync ∧ m.msg.type = .followUp ∧ sync = last.msg ∧
        fup = m.msg ∨
      (s.ports p).syfu = .haveFup ∧ m.msg.type = .sync ∧ sync = m.msg ∧ fup = last.msg) :
    Effect s (s.note (.paired sync fup))
  | synchronize (s : ClockState) (ingress origin : Int) (t1From t2From : PortIdentity)
    (follows : (s.ports g.here).state.tracks)
    (sources : ∀ source, source = t1From ∨ source = t2From →
      source = s.parent.parentPortIdentity ∨ (s.ports g.here).syfu ≠ .empty ∧
        ∃ last, (s.ports g.here).lastSyncfup = some last ∧ last.msg.sourcePortIdentity = source)
    (meets : Meets g.before s g.here) :
    Effect s (clockSynchronize c a g.here ingress origin t1From t2From s).2
  | pathDelay (s : ClockState) (req rx : Int) (source : PortIdentity)
    (follows : (s.ports g.here).state.tracks) (parent : source = s.parent.parentPortIdentity) :
    Effect s (clockPathDelay g.here req rx source s)
  | peerDelay (s : ClockState) (req rx : Int) (source : PortIdentity)
    (follows : (s.ports g.here).state.tracks)
    (measured : ((s.ports g.here).peerDelay .req).isSome) :
    Effect s (clockPeerDelay req rx source s)
  | take (s : ClockState) (q : Nat) (takes : g.takes q)
    (same : (s.ports q).bestForeign = (g.before.ports q).bestForeign) : Effect s (takeFirst q s)
  | setting (s : ClockState) (setting : Setting) (uds : g.here = 0) :
    Effect s (clockManagementSet setting s)

/-- A sequence of effects. -/
abbrev Effects : ClockState → ClockState → Prop := Relation.ReflTransGen (Effect c a g)

/-- A sequence of effects that ends with the messages in hand with which it began. -/
structure Works (s t : ClockState) : Prop where
  effects : Effects c a g s t
  hands : t.hands = s.hands

variable {c a g} {s t u : ClockState}

/-- A single effect is a series of one. -/
theorem Effect.effects (effect : Effect c a g s t) : Effects c a g s t := .single effect

namespace Works

protected theorem refl (s : ClockState) : Works c a g s s := ⟨.refl, rfl⟩

protected theorem trans (first : Works c a g s t) (second : Works c a g t u) : Works c a g s u :=
  ⟨first.effects.trans second.effects, second.hands.trans first.hands⟩

/-- An effect that hands over no message is a piece of work. -/
theorem of_effect (effect : Effect c a g s t) (hands : t.hands = s.hands) : Works c a g s t :=
  ⟨.single effect, hands⟩

/-- A message that is allocated for the time of some work. -/
theorem hand (msg : PtpMessage) (work : Works c a g (s.obtain msg).2 t) :
    Works c a g s (t.release (s.obtain msg).1.cell) := by
  have hands : t.hands = (s.obtain msg).1.cell :: s.hands := work.hands
  have held : (s.obtain msg).1.cell ∈ t.hands := by
    rw [hands]
    exact List.mem_cons_self
  constructor
  · exact ((Effect.effects (.obtain s msg)).trans work.effects).tail (.release t _ held)
  · change t.hands.erase _ = s.hands
    rw [hands, List.erase_cons_head]

/-- Counters and timers of the ports. -/
theorem idle (asked : Nat) (running : Nat → PortRunning) (sde : Bool) :
    Works c a g s { s with
      asked := asked, sde := sde, ports := fun p => { s.ports p with running := running p } } :=
  of_effect (.idle s asked running sde) rfl

protected theorem ask : Works c a g s s.ask := idle (s.asked + 1) (fun p => (s.ports p).running) s.sde

/-- What is not shared with other ports may be changed at any time. -/
theorem running (p : Nat) (change : PortRunning → PortRunning) :
    Works c a g s (s.withRunning p change) := by
  have same : s.withRunning p change = { s with
      asked := s.asked
      sde := s.sde
      ports := fun q => { s.ports q with
        running := Function.update (fun q => (s.ports q).running) p
          (change (s.ports p).running) q } } := by
    unfold ClockState.withRunning ClockState.withPort
    congr 1
    funext q
    by_cases here : q = p
    · subst here
      simp
    · simp [here]
  rw [same]
  exact idle ..

theorem setTmo (p : Nat) (fd : Descriptor) : Works c a g s (setTmo p fd s) := running p _

theorem clrTmo (p : Nat) (fd : Descriptor) : Works c a g s (clrTmo p fd s) := running p _

/-- A message that is only sent and given back leaves nothing behind. -/
theorem scratch (msg : PtpMessage) : Works c a g s (s.scratch msg) := by
  apply of_effect (.scratch s msg)
  change (_ :: s.hands).erase _ = s.hands
  exact List.erase_cons_head ..

/-- A loop of which every round is some work. -/
theorem foldl {α : Type} {step : ClockState → α → ClockState} (items : List α)
    (each : ∀ item ∈ items, ∀ s, Works c a g s (step s item)) (s : ClockState) :
    Works c a g s (items.foldl step s) := by
  induction items generalizing s with
  | nil => exact Works.refl s
  | cons item rest inductionHypothesis =>
    have first := each item List.mem_cons_self s
    have later := inductionHypothesis (fun item member =>
      each item (List.mem_cons_of_mem _ member)) (step s item)
    exact first.trans later

end Works

end Effects

end LinuxPtp
