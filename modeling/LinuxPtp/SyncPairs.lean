import LinuxPtp.SlavePorts
import LinuxPtp.MessageCounts

/-!
# Pairs of Syncs and Follow_Ups

A port that follows a master keeps a Sync until its Follow_Up arrives, or a Follow_Up until its
Sync does. What it synchronises with is always a Sync and a Follow_Up of one sequence number. Both
come from the same port unless a state decision makes another port the parent in between, for a
port that stays SLAVE or UNCALIBRATED keeps what it has.

A slot of a port is a machine of three states with the message that is kept. Which effects change
it is found once, in `Effect.slot`; the two results are then about its transitions.
-/

namespace LinuxPtp

/-- A Sync and a Follow_Up that belong together by their numbers. -/
structure Matching (sync fup : PtpMessage) : Prop where
  first : sync.type = .sync
  second : fup.type = .followUp
  number : sync.sequenceId = fup.sequenceId

/-- A message that is kept is of the kind that the state of the port says. -/
def Port.PairSlot (port : Port) : Prop :=
  port.syfu ≠ .empty → ∃ last, port.lastSyncfup = some last ∧
    (port.syfu = .haveSync ∧ last.msg.type = .sync ∨
      port.syfu = .haveFup ∧ last.msg.type = .followUp)

/-- A message that is kept was sent by a certain port. -/
def Port.KeptFrom (source : PortIdentity) (port : Port) : Prop :=
  port.syfu ≠ .empty → ∃ last, port.lastSyncfup = some last ∧ last.msg.sourcePortIdentity = source

section Slots

variable {c : Clock} {a : Answers} {g : Guards} {s t u : ClockState} {p : Nat}

/-- What can become of a message that is kept: it stays, it is dropped, or another one from the
parent is kept. -/
inductive SlotStep (s : ClockState) (old new : Port) : Prop where
  | same (syfu : new.syfu = old.syfu) (last : new.lastSyncfup = old.lastSyncfup)
  | dropped (syfu : new.syfu = .empty)
  | kept (m : Stored) (last : new.lastSyncfup = some m) (follows : old.state.tracks)
    (source : s.parent.parentPortIdentity = m.msg.sourcePortIdentity)
    (kinds : new.syfu = .haveSync ∧ m.msg.type = .sync ∨
      new.syfu = .haveFup ∧ m.msg.type = .followUp)

/-- The port that is written makes the step, and any other port makes none. -/
theorem SlotStep.update {ports : Nat → Port} {new : Port} (step : SlotStep s (ports p) new)
    (q : Nat) : SlotStep s (ports q) (Function.update ports p new q) := by
  by_cases here : q = p
  · subst here
    rw [Function.update_self]
    exact step
  · rw [Function.update_of_ne here]
    exact .same rfl rfl

/-- What an effect does to the half of a pair of any port. -/
theorem Effect.slot (effect : Effect c a g s t) (q : Nat) :
    SlotStep s (s.ports q) (t.ports q) := by
  cases effect with
  | putLast p there =>
    obtain ⟨_, same⟩ := putLast_state p s
    rw [same]
    exact SlotStep.update (.dropped rfl) q
  | keepLast p kind m held free follows source kinds =>
    exact SlotStep.update (.kept m rfl follows source kinds) q
  | dropPeerDelay slot p =>
    obtain ⟨_, same⟩ := dropPeerDelay_state slot p s
    rw [same]
    refine SlotStep.update ?_ q
    exact .same rfl rfl
  | dropDelayReq p | keepDelayReq p | handPeerDelay p | keepPeerDelay _ p | become p
  | detectPeer p | faultType p | link status =>
    refine SlotStep.update ?_ q
    exact .same rfl rfl
  | announce m held received type meets =>
    obtain ⟨_, _, _, _, _, _, _, _, _, same⟩ := announced_processAnnounce (c := c) (a := a) (s := s)
      (p := g.here) m
    rw [same]
    refine SlotStep.update ?_ q
    exact .same rfl rfl
  | clearBest =>
    obtain ⟨_, _, same⟩ := clearBest_state g.here s
    rw [same]
    refine SlotStep.update ?_ q
    exact .same rfl rfl
  | abandon p fault =>
    obtain ⟨_, same⟩ := abandon_state p s
    rw [same]
    refine SlotStep.update ?_ q
    exact .same rfl rfl
  | synchronize ingress origin t1From t2From follows sources meets =>
    obtain ⟨_, _, _, _, _, same⟩ := timed_clockSynchronize (c := c) (a := a) (s := s) g.here ingress
      origin t1From t2From
    rw [same]
    exact .same rfl rfl
  | pathDelay req rx source follows parent =>
    obtain ⟨_, _, _, _, _, same⟩ := timed_clockPathDelay (s := s) g.here req rx source
    rw [same]
    exact .same rfl rfl
  | setting setting uds => cases setting <;> exact .same rfl rfl
  | _ => exact .same rfl rfl

/-- A half that is kept is of the kind that the state says. -/
theorem SlotStep.pairSlot {old new : Port} (step : SlotStep s old new) (slot : old.PairSlot) :
    new.PairSlot := by
  cases step with
  | same syfu last =>
    unfold Port.PairSlot
    rw [syfu, last]
    exact slot
  | dropped syfu => exact fun busy => absurd syfu busy
  | kept m last follows source kinds => exact fun _ => ⟨m, last, kinds⟩

/-- A half that is kept is from the parent. -/
theorem SlotStep.keptFrom {old new : Port} (step : SlotStep s old new)
    (slot : old.KeptFrom s.parent.parentPortIdentity) :
    new.KeptFrom s.parent.parentPortIdentity := by
  cases step with
  | same syfu last =>
    unfold Port.KeptFrom
    rw [syfu, last]
    exact slot
  | dropped syfu => exact fun busy => absurd syfu busy
  | kept m last follows source kinds => exact fun _ => ⟨m, last, source.symm⟩

/-! ## What is noted -/

/-- Nothing of a kind has been noted since. -/
def Unnoted (kind : Observation → Prop) (s t : ClockState) : Prop :=
  ∀ noted, kind noted → noted ∈ t.log → noted ∈ s.log

/-- Nothing is noted. -/
theorem Unnoted.of_log {kind : Observation → Prop} (same : t.log = s.log) : Unnoted kind s t := by
  intro noted _ member
  rwa [same] at member

/-- Two steps that note nothing of a kind. -/
theorem Unnoted.trans {kind : Observation → Prop} (first : Unnoted kind s t)
    (second : Unnoted kind t u) : Unnoted kind s u :=
  fun noted concerned member => first noted concerned (second noted concerned member)

/-- What is noted is of another kind. -/
theorem unnoted_note {kind : Observation → Prop} {noted : Observation} (other : ¬ kind noted) :
    Unnoted kind s (s.note noted) := by
  intro found concerned member
  rcases List.mem_append.mp member with before | last
  · exact before
  · rw [List.mem_singleton.mp last] at concerned
    exact absurd concerned other

/-- An offset from UTC is noted. -/
theorem unnoted_clockUtcCorrect {kind : Observation → Prop}
    (other : ∀ applied utcOffset flags, ¬ kind (.corrected p applied utcOffset flags))
    (ingress : Int) : Unnoted kind s (clockUtcCorrect c p ingress s).2 := by
  rcases clockUtcCorrect_cases c p ingress s with same | ⟨_, _, _, same⟩ <;> rw [same]
  · exact Unnoted.of_log rfl
  · exact (unnoted_note (other _ _ _)).trans (Unnoted.of_log rfl)

/-- The servo notes nothing. -/
theorem unnoted_servoSample {kind : Observation → Prop} :
    Unnoted kind s (servoSample a s).2 := by
  unfold servoSample
  dsimp only
  split
  · exact Unnoted.of_log rfl
  · exact Unnoted.of_log rfl

/-- An announce notes at most that a best foreign master is missing. -/
theorem unnoted_processAnnounce {kind : Observation → Prop} (other : ¬ kind (.strayed p))
    (m : Stored) : Unnoted kind s (processAnnounce c a p m s).2 := by
  have inserted (now : Int) (fc : ForeignClock) (s : ClockState) :
      Unnoted kind s (((fcInsert m (fcPrune now fc s).1 (fcPrune now fc s).2).2).withPort p
        (Port.withForeign (fcInsert m (fcPrune now fc s).1 (fcPrune now fc s).2).1)) := by
    obtain ⟨msgs, same⟩ := fcPrune_state now fc s
    unfold fcInsert
    rw [same]
    exact Unnoted.of_log rfl
  have added : Unnoted kind s (addForeignMaster a p m s).2 := by
    unfold addForeignMaster
    split
    · exact Unnoted.of_log rfl
    next fc _ => exact inserted _ fc s
  have current : Unnoted kind s (updateCurrentMaster c a p m s).2 := by
    unfold updateCurrentMaster
    split
    · exact unnoted_note other
    next fc _ =>
      split
      · exact added
      · dsimp only
        generalize began : setTmo p .announceTimer _ = t
        have before : Unnoted kind s t := by
          rw [← began]
          split <;> split <;> exact Unnoted.of_log rfl
        exact before.trans (inserted _ fc t)
  rw [processAnnounce_eq]
  split
  · have read : Unnoted kind s (recordAnnounce c a p m s).2 := by
      unfold recordAnnounce
      split
      · exact current
      · exact added
    exact read.trans (Unnoted.of_log rfl)
  · exact Unnoted.of_log rfl

/-- A pair is noted. -/
def IsPaired (noted : Observation) : Prop := ∃ sync fup, noted = .paired sync fup

/-- No pair has been noted since. -/
abbrev Unpaired : ClockState → ClockState → Prop := Unnoted IsPaired

/-- What is noted is no pair. -/
theorem unpaired_note {noted : Observation} (other : ∀ sync fup, noted ≠ .paired sync fup) :
    Unpaired s (s.note noted) :=
  unnoted_note fun ⟨sync, fup, paired⟩ => other sync fup paired

/-- What is noted of an offset is no pair. -/
theorem unpaired_tsprocUpdateOffset : Unpaired s (tsprocUpdateOffset c a p s) := by
  unfold tsprocUpdateOffset
  dsimp only
  split
  · exact (unpaired_note fun _ _ => by simp).trans (Unnoted.of_log rfl)
  · exact Unnoted.of_log rfl

/-- A synchronisation notes times and no pair; the pair is noted before. -/
theorem unpaired_clockSynchronize (ingress origin : Int) (t1From t2From : PortIdentity) :
    Unpaired s (clockSynchronize c a p ingress origin t1From t2From s).2 := by
  have down : Unpaired s { s with tsproc := tsprocDownTs origin ingress t1From t2From s.tsproc } :=
    Unnoted.of_log rfl
  have corrected (t : ClockState) : Unpaired t (clockUtcCorrect c p ingress t).2 :=
    unnoted_clockUtcCorrect (by simp [IsPaired]) ingress
  exact clockSynchronize_keeps down
    (fun _ => (down.trans unpaired_tsprocUpdateOffset).trans (corrected _))
    fun _ unpaired => unpaired.trans unnoted_servoSample

/-- A delay notes times and no pair. -/
theorem unpaired_clockPathDelay (req rx : Int) (source : PortIdentity) :
    Unpaired s (clockPathDelay p req rx source s) := by
  unfold clockPathDelay
  dsimp only
  split
  · have began : Unpaired s { s with tsproc := tsprocUpTs req rx source s.tsproc } :=
      Unnoted.of_log rfl
    exact (began.trans (unpaired_note fun _ _ => by simp)).trans (Unnoted.of_log rfl)
  · exact Unnoted.of_log rfl

/-- What is noted of a pair, if an effect notes one. -/
structure Pairs (s : ClockState) (sync fup : PtpMessage) : Prop where
  number : sync.sequenceId = fup.sequenceId
  arrived : ∃ p last, (s.ports p).lastSyncfup = some last ∧
    ((s.ports p).syfu = .haveSync ∧ sync = last.msg ∧ fup.type = .followUp ∧
        s.parent.parentPortIdentity = fup.sourcePortIdentity ∨
      (s.ports p).syfu = .haveFup ∧ fup = last.msg ∧ sync.type = .sync ∧
        s.parent.parentPortIdentity = sync.sourcePortIdentity)

/-- A pair that an effect notes is made of the half that a port keeps and of the message in the
hand. -/
theorem Effect.pairs (effect : Effect c a g s t) {sync fup : PtpMessage}
    (noted : .paired sync fup ∈ t.log) : .paired sync fup ∈ s.log ∨ Pairs s sync fup := by
  by_cases before : Unpaired s t
  · exact Or.inl (before _ ⟨sync, fup, rfl⟩ noted)
  cases effect with
  | pair p last m there same source follows sync' fup' kinds =>
    rcases List.mem_append.mp noted with member | this
    · exact Or.inl member
    · cases List.mem_singleton.mp this
      right
      rcases kinds with ⟨syfu, type, rfl, rfl⟩ | ⟨syfu, type, rfl, rfl⟩
      · exact ⟨same, p, last, there, Or.inl ⟨syfu, rfl, type, source⟩⟩
      · exact ⟨same.symm, p, last, there, Or.inr ⟨syfu, rfl, type, source⟩⟩
  | putLast p there =>
    obtain ⟨_, same⟩ := putLast_state p s
    rw [same] at before
    exact absurd (Unnoted.of_log rfl) before
  | dropPeerDelay slot p =>
    obtain ⟨_, same⟩ := dropPeerDelay_state slot p s
    rw [same] at before
    exact absurd (Unnoted.of_log rfl) before
  | announce m held received type meets =>
    exact absurd (unnoted_processAnnounce (by simp [IsPaired]) m) before
  | clearBest =>
    obtain ⟨_, _, same⟩ := clearBest_state g.here s
    rw [same] at before
    exact absurd (Unnoted.of_log rfl) before
  | abandon p fault =>
    obtain ⟨_, same⟩ := abandon_state p s
    rw [same] at before
    exact absurd (Unnoted.of_log rfl) before
  | synchronize ingress origin t1From t2From follows sources meets =>
    exact absurd (unpaired_clockSynchronize _ _ _ _) before
  | pathDelay req rx source follows parent => exact absurd (unpaired_clockPathDelay _ _ _) before
  | take q takes same => exact absurd (unpaired_note fun _ _ => by simp) before
  | setting setting uds => cases setting <;> exact absurd (Unnoted.of_log rfl) before
  | _ => exact absurd (Unnoted.of_log rfl) before

/-- So the two are of one sequence number, a Sync and a Follow_Up. -/
theorem Effect.matching (effect : Effect c a g s t) (slots : ∀ p, (s.ports p).PairSlot)
    {sync fup : PtpMessage} (noted : .paired sync fup ∈ t.log) :
    .paired sync fup ∈ s.log ∨ Matching sync fup := by
  rcases effect.pairs noted with before | ⟨number, p, last, there, arrived⟩
  · exact Or.inl before
  right
  have busy : (s.ports p).syfu ≠ .empty := by
    rcases arrived with ⟨syfu, _⟩ | ⟨syfu, _⟩ <;> rw [syfu] <;> simp
  obtain ⟨other, same, kinds⟩ := slots p busy
  cases there.symm.trans same
  rcases arrived with ⟨syfu, rfl, type, _⟩ | ⟨syfu, rfl, type, _⟩
  · simp only [syfu, reduceCtorEq, false_and, or_false, true_and] at kinds
    exact ⟨kinds, type, number⟩
  · simp only [syfu, reduceCtorEq, false_and, false_or, true_and] at kinds
    exact ⟨type, kinds, number⟩

/-- And both are from the parent, as long as all halves are. -/
theorem Effect.one_source (effect : Effect c a g s t)
    (slots : ∀ p, (s.ports p).KeptFrom s.parent.parentPortIdentity) {sync fup : PtpMessage}
    (noted : .paired sync fup ∈ t.log) :
    .paired sync fup ∈ s.log ∨ sync.sourcePortIdentity = fup.sourcePortIdentity := by
  rcases effect.pairs noted with before | ⟨_, p, last, there, arrived⟩
  · exact Or.inl before
  right
  have busy : (s.ports p).syfu ≠ .empty := by
    rcases arrived with ⟨syfu, _⟩ | ⟨syfu, _⟩ <;> rw [syfu] <;> simp
  obtain ⟨other, same, source⟩ := slots p busy
  cases there.symm.trans same
  rcases arrived with ⟨_, rfl, _, parent⟩ | ⟨_, rfl, _, parent⟩
  · exact source.trans parent
  · exact parent.symm.trans source.symm

end Slots

/-! ## The decision -/

section Decision

variable {c : Clock} {a : Answers} {s t u : ClockState} {p : Nat}

/-- What is kept on the ports is left or dropped, and no pair is noted. -/
structure Slotwise (s t : ClockState) : Prop where
  slots : ∀ p, (t.ports p).syfu = (s.ports p).syfu ∧
    (t.ports p).lastSyncfup = (s.ports p).lastSyncfup ∨ (t.ports p).syfu = .empty
  unpaired : Unpaired s t

/-- Two steps that only give halves up. -/
theorem Slotwise.trans (first : Slotwise s t) (second : Slotwise t u) : Slotwise s u where
  slots := by
    intro p
    rcases second.slots p with ⟨syfu, last⟩ | empty
    · rw [syfu, last]
      exact first.slots p
    · exact Or.inr empty
  unpaired := first.unpaired.trans second.unpaired

/-- The ports stay as they are. -/
theorem Slotwise.of_ports (ports : t.ports = s.ports) (unpaired : Unpaired s t) : Slotwise s t where
  slots := by
    intro p
    rw [ports]
    exact Or.inl ⟨rfl, rfl⟩
  unpaired := unpaired

/-- What the clock writes down of its parent is not in the ports. -/
theorem slotwise_informed (recommended : PortState) : Slotwise s (informed c recommended s) := by
  unfold informed
  split
  · exact Slotwise.of_ports rfl (Unnoted.of_log rfl)
  · unfold clockUpdateSlave
    split
    · exact Slotwise.of_ports rfl (Unnoted.of_log rfl)
    · have took (port : Nat) (first : Option Stored) : Unpaired s (s.note (.took port first)) :=
        unpaired_note fun _ _ => by simp
      dsimp only
      split
      · exact Slotwise.of_ports rfl (took _ _)
      · exact Slotwise.of_ports rfl ((took _ _).trans (Unnoted.of_log rfl))
  · exact Slotwise.of_ports rfl (Unnoted.of_log rfl)

/-- A port is told what to do: halves may be given up. -/
theorem slotwise_recommend (freshBest : Bool) (p : Nat) :
    Slotwise s (recommend c a freshBest s p) := by
  rw [recommend_eq]
  apply (slotwise_informed (bmcStateDecision c p s)).trans
  have touches := portDispatch_touches c a p (recommendation (bmcStateDecision c p s)) freshBest
    (informed c (bmcStateDecision c p s) s)
  constructor
  · intro q
    by_cases here : q = p
    · subst here
      exact touches.slot
    · rw [portDispatch_elsewhere here]
      exact Or.inl ⟨rfl, rfl⟩
  · obtain ⟨_, _, _, _, _, frame⟩ := touches.frame
    apply Unnoted.of_log
    rw [frame]

/-- The choice of the best master leaves all halves. -/
theorem slotwise_decided : Slotwise s (decided c a s).2 := by
  obtain ⟨_, _, _, _, _, _, _, each, same⟩ := decided_state (c := c) (a := a) s
  constructor
  · intro p
    obtain ⟨_, _, here⟩ := each p
    rw [same]
    dsimp only
    rw [here]
    exact Or.inl ⟨rfl, rfl⟩
  · apply Unnoted.of_log
    rw [same]

/-- The choice, and what each port is told. -/
theorem slotwise_handleStateDecisionEvent : Slotwise s (handleStateDecisionEvent c a s) := by
  rw [handleStateDecisionEvent_eq]
  apply slotwise_decided.trans
  generalize (decided c a s).2 = t
  induction c.ports generalizing t with
  | nil => exact Slotwise.of_ports rfl (Unnoted.of_log rfl)
  | cons p rest inductionHypothesis =>
    exact (slotwise_recommend (decided c a s).1 p).trans (inductionHypothesis _)

/-- A state decision if it was asked for. -/
theorem slotwise_handleDecision : Slotwise s (handleDecision c a s) := by
  unfold handleDecision
  split
  · exact slotwise_handleStateDecisionEvent.trans (Slotwise.of_ports rfl (Unnoted.of_log rfl))
  · exact Slotwise.of_ports rfl (Unnoted.of_log rfl)

end Decision

/-! ## Runs -/

section Runs

open Runs

variable {c : Clock} {a : Answers} {s t : ClockState}

/-- What is preserved of every pair and of what is kept for one. -/
structure PairsKept (s : ClockState) : Prop where
  slots : ∀ p, (s.ports p).PairSlot
  pairs : ∀ sync fup, .paired sync fup ∈ s.log → Matching sync fup

/-- What is preserved of the sources as long as the parent stays. -/
structure OneSource (c : Clock) (s : ClockState) : Prop where
  slaves : SlavePorts c s
  mine : ∀ p, (s.ports p).syfu ≠ .empty → p ∈ c.ports
  slots : ∀ p, (s.ports p).KeptFrom s.parent.parentPortIdentity
  pairs : ∀ sync fup, .paired sync fup ∈ s.log → sync.sourcePortIdentity = fup.sourcePortIdentity

/-- Halves that are given up, or left, are still of the kind that the state says. -/
theorem PairsKept.slotwise (kept : PairsKept s) (slotwise : Slotwise s t) : PairsKept t where
  slots := by
    intro p busy
    rcases slotwise.slots p with ⟨syfu, last⟩ | empty
    · rw [syfu] at busy ⊢
      rw [last]
      exact kept.slots p busy
    · exact absurd empty busy
  pairs := fun sync fup noted => kept.pairs sync fup (slotwise.unpaired _ ⟨sync, fup, rfl⟩ noted)

/-- Halves stay with the parent they are from, if the parent stays or no half is left. -/
theorem OneSource.slotwise (kept : OneSource c s) (slotwise : Slotwise s t)
    (slaves : SlavePorts c t)
    (parent : t.parent.parentPortIdentity = s.parent.parentPortIdentity ∨
      ∀ p ∈ c.ports, (s.ports p).syfu = .empty) : OneSource c t where
  slaves := slaves
  mine := by
    intro p busy
    rcases slotwise.slots p with ⟨syfu, _⟩ | empty
    · rw [syfu] at busy
      exact kept.mine p busy
    · exact absurd empty busy
  slots := by
    intro p busy
    rcases slotwise.slots p with ⟨syfu, last⟩ | empty
    · rw [syfu] at busy
      rw [last]
      rcases parent with same | empty
      · rw [same]
        exact kept.slots p busy
      · exact absurd (empty p (kept.mine p busy)) busy
    · exact absurd empty busy
  pairs := fun sync fup noted => kept.pairs sync fup (slotwise.unpaired _ ⟨sync, fup, rfl⟩ noted)

/-- One effect keeps the halves sound. -/
theorem Effect.pairsKept {g : Guards} (effect : Effect c a g s t) (kept : PairsKept s) :
    PairsKept t where
  slots := fun p => (effect.slot p).pairSlot (kept.slots p)
  pairs := by
    intro sync fup noted
    rcases effect.matching kept.slots noted with before | matching
    · exact kept.pairs sync fup before
    · exact matching

/-- One effect of a descriptor keeps the halves from the parent, which it does not change. -/
theorem Effect.oneSource {before : ClockState} {p : Nat}
    (effect : Effect c a (Guards.undecided c a before p) s t) (kept : OneSource c s) :
    OneSource c t where
  slaves := effect.slavePorts kept.slaves
  mine := by
    intro p busy
    cases effect.slot p with
    | same syfu last =>
      rw [syfu] at busy
      exact kept.mine p busy
    | dropped syfu => exact absurd syfu busy
    | kept m last follows source kinds => exact kept.slaves.mine p follows
  slots := by
    intro p
    rw [effect.undecided.parent]
    exact (effect.slot p).keptFrom (kept.slots p)
  pairs := by
    intro sync fup noted
    rcases effect.one_source kept.slots noted with before | same
    · exact kept.pairs sync fup before
    · exact same

/-- Setting and clearing a fault timer concerns no pair. -/
theorem slotwise_armFault (p : Nat) : Slotwise s (armFault c p s) where
  slots := by
    intro q
    obtain ⟨_, same⟩ := armFault_port (c := c) p q s
    rw [same]
    exact Or.inl ⟨rfl, rfl⟩
  unpaired := Unnoted.of_log rfl

/-- A fault timer is stopped. -/
theorem slotwise_disarmFault (p : Nat) : Slotwise s (disarmFault p s) where
  slots := by
    intro q
    obtain ⟨_, same⟩ := disarmFault_port p q s
    rw [same]
    exact Or.inl ⟨rfl, rfl⟩
  unpaired := Unnoted.of_log rfl

/-- One step of the loop, by its kind. -/
theorem pollStep_pairsKept {s : PollState} (step : PollStep) (kept : PairsKept s.clock) :
    PairsKept (pollStep c s step).clock := by
  apply pollStep_preserves PairsKept _ _ _ _ _ _ step kept
  · exact fun a g s t effect kept => effect.pairsKept kept
  · exact fun p s kept => kept.slotwise (slotwise_armFault p)
  · exact fun p s kept => kept.slotwise (slotwise_disarmFault p)
  · exact fun a s kept => kept.slotwise slotwise_decided
  · exact fun recommended s kept => kept.slotwise (slotwise_informed recommended)
  · exact fun s kept => kept.slotwise (Slotwise.of_ports rfl (Unnoted.of_log rfl))

/-- No state decision makes another port the parent while a port keeps half of a pair. -/
def KeepsParent (c : Clock) (s : PollState) : PollStep → Prop
  | .decide a => (handleDecision c a s.clock).parent.parentPortIdentity =
      s.clock.parent.parentPortIdentity ∨ ∀ p ∈ c.ports, (s.clock.ports p).syfu = .empty
  | _ => True

instance (c : Clock) (s : PollState) (step : PollStep) : Decidable (KeepsParent c s step) :=
  match step with
  | .decide _ => @instDecidableOr _ _ (instDecidableEqPortIdentity _ _)
      (@List.decidableBAll _ _ (fun _ => instDecidableEqSyfuState _ _) _)
  | .enter _ | .descriptor _ _ _ | .faultTimer _ _ | .uds _ _ => instDecidableTrue

/-- One step of the loop; a state decision is the one that may change the parent. -/
theorem pollStep_oneSource {s : PollState} {step : PollStep} (kept : OneSource c s.clock)
    (keeps : KeepsParent c s step) : OneSource c (pollStep c s step).clock := by
  by_cases decision : ∃ a, step = .decide a
  · obtain ⟨a, rfl⟩ := decision
    exact kept.slotwise slotwise_handleDecision kept.slaves.handleDecision keeps
  · apply pollStep_undecided (OneSource c) (fun a same => decision ⟨a, same⟩) _ _ _ kept
    · exact fun a _ p before s t effect kept => effect.oneSource kept
    · exact fun p s kept =>
        kept.slotwise (slotwise_armFault p) (kept.slaves.armFault p) (Or.inl rfl)
    · exact fun p s kept =>
        kept.slotwise (slotwise_disarmFault p) (kept.slaves.disarmFault p) (Or.inl rfl)

/-- Nothing is kept on a port when the clock is started. -/
theorem clockStart_empty (empty : ∀ p, (s.ports p).syfu = .empty) (p : Nat) :
    ((clockStart c a s).ports p).syfu = .empty := by
  unfold clockStart
  generalize c.ports ++ [0] = list
  induction list generalizing s with
  | nil => exact empty p
  | cons q rest inductionHypothesis =>
    apply inductionHypothesis
    intro r
    by_cases here : r = q
    · subst here
      rcases (portDispatch_touches c a r .initializeEvent false s).slot with ⟨syfu, _⟩ | syfu
      · exact syfu.trans (empty r)
      · exact syfu
    · rw [portDispatch_elsewhere here]
      exact empty r

/-- At the start no port keeps a half. -/
theorem start_empty (start : StartUp) (p : Nat) :
    ((start.state c).clock.ports p).syfu = .empty := clockStart_empty (fun _ => rfl) p

/-- At the start nothing is noted. -/
theorem start_log (start : StartUp) : (start.state c).clock.log = [] := by
  obtain ⟨_, _, _, _, _, same⟩ := clockStart_frame (c := c) (a := start.answers)
    (clockOpen c start.dds start.utcOffset start.timeSource start.realtime)
  unfold StartUp.state
  rw [same]
  rfl

/-- Whatever ports synchronised with, it was a Sync and a Follow_Up of one number. -/
def WellPaired (s : ClockState) : Prop :=
  ∀ sync fup, .paired sync fup ∈ s.log → Matching sync fup

/-- Whatever ports synchronised with, the Sync and the Follow_Up came from one port. -/
def PairedFromOne (s : ClockState) : Prop :=
  ∀ sync fup, .paired sync fup ∈ s.log → sync.sourcePortIdentity = fup.sourcePortIdentity

/-- In every run, what a port synchronises with is a Sync and a Follow_Up of one number.

Proof: the half that a port keeps is of the kind that the state of its slot says, and the other half
is compared with it by number before the two are put together. Whatever flushes the slot leaves it
empty. -/
theorem pairs_match (start : StartUp) (polls : List Poll) (count : Nat) :
    WellPaired (stateAfter c start polls count).clock := by
  have kept : PairsKept (stateAfter c start polls count).clock := by
    apply stateAfter_keeps (fun s => PairsKept s.clock) polls count
    · constructor
      · exact fun p busy => absurd (start_empty start p) busy
      · intro sync fup noted
        rw [start_log] at noted
        cases noted
    · exact fun s step _ _ kept => pollStep_pairsKept step kept
  exact kept.pairs

/-- In every run in which no state decision makes another port the parent while a port keeps half
of a pair, the Sync and the Follow_Up that a port synchronises with come from one port.

Proof: only messages of the parent are kept or completed. A half that is kept is from the parent as
long as the parent does not change while it is kept, and that is what the run is asked for. -/
theorem pairs_from_one {start : StartUp} {polls : List Poll} {events : List PollStep}
    (moment : events <+: polls.flatMap (Poll.steps c))
    (kept : Along (pollStep c) (KeepsParent c) (start.state c) events) :
    PairedFromOne (events.foldl (pollStep c) (start.state c)).clock := by
  have sources : OneSource c (events.foldl (pollStep c) (start.state c)).clock := by
    apply run_keeps (fun s => OneSource c s.clock) moment kept
    · constructor
      · exact slavePorts_start c start
      · exact fun p busy => absurd (start_empty start p) busy
      · exact fun p busy => absurd (start_empty start p) busy
      · intro sync fup noted
        rw [start_log] at noted
        cases noted
    · exact fun s step _ _ sources keeps => pollStep_oneSource sources keeps
  exact sources.pairs

/-- Two pairs from the parent that the first decision chose. -/
theorem pairs_from_one_pairs :
    PairedFromOne (([electingPoll, pairPoll 1 .locked, pairPoll 2 .locked].flatMap
      (Poll.steps steadyClock)).foldl (pollStep steadyClock)
        (plainStart.state steadyClock)).clock :=
  pairs_from_one (List.prefix_refl _) (by decide +kernel)

end Runs

end LinuxPtp
