import LinuxPtp.RecordedAnnounces

/-!
# Clocks in a network

Any number of clocks take the steps of their polls in any order. An Announce that one of them hands
to its transport may arrive at any port of the others, at any later time, any number of times or
never; transparent clocks on its way leave what it tells. Nothing else that a clock receives as an
Announce exists in the network.

What is proved of a run is proved of everything that was ever sent, not of what is on its way:
delay, loss, repetition and reordering then need no argument of their own. Each clock is a run of
the model of one clock, and what it can hear is given by what the others have sent.
-/

namespace LinuxPtp

/-! ## Announces in flight -/

section Sending

variable (c : Clock) (a : Answers)

/-- The Announce that `port_tx_announce` builds, if it builds one. -/
def txAnnounce (p : Nat) (s : ClockState) : Option PtpMessage :=
  let (capable, s) := portCapable a s
  if !capable then none else some (announceOf c p s)

/-- The Announce that is built while a descriptor of a port is handled. -/
def eventAnnounce (p : Nat) (fd : Descriptor) (s : ClockState) : Option PtpMessage :=
  match c.type, fd with
  | .ordinary, .mannoTimer | .boundary, .mannoTimer => txAnnounce c a p (setTmo p .mannoTimer s)
  | _, _ => none

/-- The Announce that is built in a step of a poll. -/
def PollStep.announces (s : PollState) : PollStep → Option PtpMessage
  | .descriptor p fd a => if s.faulted then none else eventAnnounce c a p fd s.clock
  | .uds fd a => eventAnnounce c a 0 fd s.clock
  | .enter _ | .faultTimer _ _ | .decide _ => none

/-- What is received in a step of a poll. -/
def PollStep.receives (step : PollStep) : Option PtpMessage :=
  match step.answers with
  | none => none
  | some a =>
    match a.received with
    | .failed | .rejected => none
    | .message m => some m

/-- What an Announce tells, wherever it arrives. -/
def PtpMessage.tells (m : PtpMessage) : PortIdentity × Announcement × List PathTrace × PathTrace :=
  (m.sourcePortIdentity, m.announce, m.tlvs, m.suffix)

end Sending

/-- The state of a network of clocks. -/
structure Network (Node : Type) where
  polls : Node → PollState
  /-- The Announces that were sent, the newest first. -/
  sent : List PtpMessage := []

section Networks

variable {Node : Type} (clocks : Node → Clock)

/-- What arrives as an Announce was sent as one. -/
def Network.carries (w : Network Node) (m : PtpMessage) : Bool :=
  m.type ≠ .announce || w.sent.any fun earlier => earlier.tells = m.tells

/-- One of the clocks takes a step, unless it would receive an Announce that was not sent. -/
def networkStep [DecidableEq Node] (w : Network Node) (event : Node × PollStep) : Network Node :=
  let (n, step) := event
  if step.receives.all w.carries then
    { polls := Function.update w.polls n (pollStep (clocks n) (w.polls n) step)
      sent := (step.announces (clocks n) (w.polls n)).toList ++ w.sent }
  else w

/-- The network after a run. -/
def networkAfter [DecidableEq Node] (starts : Node → StartUp)
    (events : List (Node × PollStep)) : Network Node :=
  events.foldl (networkStep clocks) { polls := fun n => (starts n).state (clocks n) }

/-- The path of an Announce names clocks of the network, each of them once, the sender last, and
`update_current_master` finds it where `path_trace_ignore` looks for it. -/
structure TracedRight (m : PtpMessage) : Prop where
  single : m.tlvs = [] ∧ m.suffix.cid = [] ∨ m.tlvs = [m.suffix] ∧ m.suffix.type = .pathTrace
  once : m.suffix.cid.Nodup
  last : m.tlvs ≠ [] → m.suffix.cid.getLast? = some m.sourcePortIdentity.clockIdentity
  known : ∀ id ∈ m.suffix.cid, ∃ n, id = (clocks n).clockIdentity

/-- How an Announce came to be: a grandmaster sent it with a default data set that it had, or a
clock sent it that goes by the Announce of another one, which came to be in one step less. -/
inductive Passed (had : Node → DefaultDataSet → Prop) (sent : List PtpMessage) :
    Nat → PtpMessage → Prop
  | origin {n : Node} {dds : DefaultDataSet} {m : PtpMessage} (member : m ∈ sent)
    (own : had n dds) (sender : m.sourcePortIdentity.clockIdentity = (clocks n).clockIdentity)
    (identity : m.announce.grandmasterIdentity = (clocks n).clockIdentity)
    (quality : m.announce.grandmasterClockQuality = dds.clockQuality)
    (priority1 : m.announce.grandmasterPriority1 = dds.priority1)
    (priority2 : m.announce.grandmasterPriority2 = dds.priority2) : Passed had sent 0 m
  | on {steps : Nat} {n : Node} {earlier m : PtpMessage} (member : m ∈ sent)
    (before : Passed had sent steps earlier)
    (sender : m.sourcePortIdentity.clockIdentity = (clocks n).clockIdentity)
    (other : earlier.sourcePortIdentity.clockIdentity ≠ (clocks n).clockIdentity)
    (identity : m.announce.grandmasterIdentity = earlier.announce.grandmasterIdentity)
    (quality : m.announce.grandmasterClockQuality = earlier.announce.grandmasterClockQuality)
    (priority1 : m.announce.grandmasterPriority1 = earlier.announce.grandmasterPriority1)
    (priority2 : m.announce.grandmasterPriority2 = earlier.announce.grandmasterPriority2) :
    Passed had sent (steps + 1) m

variable {clocks}

/-- The only Announces of a step are those of the clock as it was before. -/
theorem announces_eq {c : Clock} {s : PollState} {step : PollStep} {m : PtpMessage}
    (announces : step.announces c s = some m) :
    (c.type = .ordinary ∨ c.type = .boundary) ∧ ∃ p, m = announceOf c p s.clock := by
  have built : ∀ a p fd, eventAnnounce c a p fd s.clock = some m →
      (c.type = .ordinary ∨ c.type = .boundary) ∧ ∃ p, m = announceOf c p s.clock := by
    intro a p fd built
    have sent : txAnnounce c a p (setTmo p .mannoTimer s.clock) = some m →
        m = announceOf c p s.clock := by
      intro sent
      unfold txAnnounce portCapable at sent
      dsimp only at sent
      split at sent
      · cases sent
      · rw [← Option.some.inj sent]
        unfold announceOf setTmo
        have here := withRunning_same (s := s.clock) (p := p) fun running =>
          { running with timers := Function.update running.timers .mannoTimer true }
        simp only [ClockState.ask, here]
        rfl
    unfold eventAnnounce at built
    split at built
    next type => exact ⟨Or.inl type, p, sent built⟩
    next type => exact ⟨Or.inr type, p, sent built⟩
    next => cases built
  cases step with
  | enter | faultTimer | decide => cases announces
  | descriptor p fd a =>
    unfold PollStep.announces at announces
    dsimp only at announces
    split at announces
    · cases announces
    · exact built a p fd announces
  | uds fd a => exact built a 0 fd announces

/-! ## Paths -/

/-- A port accepts an Announce of the network. -/
structure Told (c : Clock) (sent : List PtpMessage) (p : Nat) (m : PtpMessage) : Prop where
  heeded : Heeded c p m
  type : m.type = .announce
  near : m.announce.stepsRemoved < 255
  sent : ∃ earlier ∈ sent, earlier.tells = m.tells

theorem Told.mono {c : Clock} {sent more : List PtpMessage} {p : Nat} {m : PtpMessage}
    (told : Told c sent p m) (wider : sent ⊆ more) : Told c more p m := by
  obtain ⟨earlier, member, same⟩ := told.sent
  exact ⟨told.heeded, told.type, told.near, earlier, wider member, same⟩

/-- A port that traces paths accepts no Announce whose path names its own clock. -/
theorem Heeded.untraced {c : Clock} {p : Nat} {m : PtpMessage} (heeded : Heeded c p m)
    (type : m.type = .announce) (traced : (c.setup p).pathTraceEnabled)
    (sends : c.type = .ordinary ∨ c.type = .boundary) :
    ∀ tlv ∈ m.tlvs, tlv.type = .pathTrace → c.clockIdentity ∉ tlv.cid := by
  have heeds : portIgnore c true p m = false := by
    unfold Heeded at heeded
    rcases sends with same | same <;> rw [same] at heeded <;> exact heeded
  simp only [portIgnore, pathTraceIgnore, type, traced, Bool.or_eq_false_iff, decide_true,
    Bool.true_and] at heeds
  intro tlv member kind named
  have none := List.any_eq_false.mp heeds.1.2 tlv member
  simp [kind, named] at none

/-- The stored path of a clock that sends Announces names other clocks of the network, each of them
once. -/
structure PathRight (clocks : Node → Clock) (c : Clock) (path : List ClockIdentity) : Prop where
  once : path.Nodup
  others : c.clockIdentity ∉ path
  known : ∀ id ∈ path, ∃ n, id = (clocks n).clockIdentity

theorem Grounded.pathRight {c : Clock} {sent : List PtpMessage} {own : DefaultDataSet → Prop}
    {s : ClockState} (grounded : Grounded c (Told c sent) own s)
    (traced : ∀ m ∈ sent, TracedRight clocks m) (sends : c.type = .ordinary ∨ c.type = .boundary) :
    PathRight clocks c s.path := by
  have nothing : PathRight clocks c [] :=
    ⟨List.nodup_nil, List.not_mem_nil, fun _ member => absurd member List.not_mem_nil⟩
  rcases grounded.path with empty | ⟨p, m, told, enabled, path⟩
  · rw [empty]
    exact nothing
  · obtain ⟨earlier, member, same⟩ := told.sent
    have right := traced earlier member
    simp only [PtpMessage.tells, Prod.mk.injEq] at same
    obtain ⟨_, _, tlvs, suffix⟩ := same
    rw [path, ← suffix]
    refine ⟨right.once, ?_, right.known⟩
    rcases right.single with ⟨_, bare⟩ | ⟨found, kind⟩
    · rw [bare]
      exact List.not_mem_nil
    · rw [tlvs] at found
      exact told.heeded.untraced told.type enabled sends _ (by rw [found]; simp) kind

theorem PathRight.announceOf {n : Node} {p : Nat} {s : ClockState}
    (right : PathRight clocks (clocks n) s.path) :
    TracedRight clocks (announceOf (clocks n) p s) := by
  have bare : TracedRight clocks { LinuxPtp.announceOf (clocks n) p s with
      tlvs := [], suffix := ⟨.other, []⟩ } :=
    ⟨Or.inl ⟨rfl, rfl⟩, List.nodup_nil, fun impossible => absurd rfl impossible,
      fun _ member => absurd member List.not_mem_nil⟩
  unfold LinuxPtp.announceOf pathTraceAppend at bare ⊢
  dsimp only at bare ⊢
  split_ifs with enabled long
  · exact bare
  · constructor
    · exact Or.inr ⟨rfl, rfl⟩
    · exact List.nodup_append.mpr ⟨right.once, List.nodup_singleton _, by
        rintro id member other self same
        rw [List.mem_singleton.mp self] at same
        exact right.others (same ▸ member)⟩
    · exact fun _ => List.getLast?_concat
    · intro id member
      rcases List.mem_append.mp member with earlier | self
      · exact right.known id earlier
      · exact ⟨n, List.mem_singleton.mp self⟩
  · exact bare

/-! ## Steps removed -/

theorem Passed.mono {had later : Node → DefaultDataSet → Prop} {sent more : List PtpMessage}
    {steps : Nat} {m : PtpMessage} (passed : Passed clocks had sent steps m)
    (longer : ∀ n dds, had n dds → later n dds) (wider : sent ⊆ more) :
    Passed clocks later more steps m := by
  induction passed with
  | origin member own sender identity quality priority1 priority2 =>
    exact .origin (wider member) (longer _ _ own) sender identity quality priority1 priority2
  | on member before sender other identity quality priority1 priority2 inductionHypothesis =>
    exact .on (wider member) inductionHypothesis sender other identity quality priority1 priority2

/-- What is told of a grandmaster goes back to a default data set of a clock. -/
theorem Passed.origin_named {had : Node → DefaultDataSet → Prop} {sent : List PtpMessage}
    {steps : Nat} {m : PtpMessage} (passed : Passed clocks had sent steps m) :
    ∃ n dds, had n dds ∧ m.announce.grandmasterIdentity = (clocks n).clockIdentity ∧
      m.announce.grandmasterClockQuality = dds.clockQuality ∧
      m.announce.grandmasterPriority1 = dds.priority1 ∧
      m.announce.grandmasterPriority2 = dds.priority2 := by
  induction passed with
  | origin member own sender identity quality priority1 priority2 =>
    exact ⟨_, _, own, identity, quality, priority1, priority2⟩
  | on member before sender other identity quality priority1 priority2 inductionHypothesis =>
    obtain ⟨n, dds, own, first, second, third, fourth⟩ := inductionHypothesis
    exact ⟨n, dds, own, identity.trans first, quality.trans second, priority1.trans third,
      priority2.trans fourth⟩

/-- What a clock announces has come from a grandmaster in as many steps as it says. -/
theorem Grounded.passed {n : Node} {had : Node → DefaultDataSet → Prop} {sent : List PtpMessage}
    {p : Nat} {s : ClockState}
    (grounded : Grounded (clocks n) (Told (clocks n) sent) (had n) s)
    (earlier : ∀ m ∈ sent, Passed clocks had sent m.announce.stepsRemoved.toNat m) :
    Passed clocks had (announceOf (clocks n) p s :: sent) s.stepsRemoved.toNat
      (announceOf (clocks n) p s) := by
  rcases grounded.parent with ⟨dds, own, steps, parent⟩ | ⟨q, m, told, steps, parent⟩
  · rw [steps]
    refine .origin (n := n) List.mem_cons_self own rfl ?_ ?_ ?_ ?_ <;>
      simp [announceOf, parent]
  · obtain ⟨first, member, same⟩ := told.sent
    simp only [PtpMessage.tells, Prod.mk.injEq] at same
    obtain ⟨source, announce, _, _⟩ := same
    have near := UInt16.lt_iff_toNat_lt.mp told.near
    have counted : s.stepsRemoved.toNat = first.announce.stepsRemoved.toNat + 1 := by
      rw [steps, UInt16.toNat_add, announce]
      simp only [UInt16.reduceToNat] at near ⊢
      omega
    have foreign : m.sourcePortIdentity.clockIdentity ≠ (clocks n).clockIdentity := by
      have heeded := told.heeded.not_ignored
      simp only [tcIgnore, Bool.or_eq_false_iff, decide_eq_false_iff_not] at heeded
      exact heeded.2
    rw [counted]
    refine .on (n := n) List.mem_cons_self ((earlier first member).mono (fun _ _ => id)
      (List.subset_cons_self ..)) rfl (source ▸ foreign) ?_ ?_ ?_ ?_ <;>
      simp [announceOf, parent, announce]

/-! ## Runs -/

/-- What the clocks go by and what they announce comes from what was announced. -/
structure Truthful (clocks : Node → Clock) (had : Node → DefaultDataSet → Prop)
    (w : Network Node) : Prop where
  grounded : ∀ n, Grounded (clocks n) (Told (clocks n) w.sent) (had n) (w.polls n).clock
  traced : ∀ m ∈ w.sent, TracedRight clocks m
  passed : ∀ m ∈ w.sent, Passed clocks had w.sent m.announce.stepsRemoved.toNat m

theorem Truthful.mono {had later : Node → DefaultDataSet → Prop} {w : Network Node}
    (truthful : Truthful clocks had w) (longer : ∀ n dds, had n dds → later n dds) :
    Truthful clocks later w where
  grounded n := (truthful.grounded n).mono (fun _ _ => id) (longer n)
  traced := truthful.traced
  passed m member := (truthful.passed m member).mono longer (List.Subset.refl _)

variable [DecidableEq Node]

/-- A clock had a default data set at some moment of the run. -/
def HadThere (clocks : Node → Clock) (starts : Node → StartUp) (events : List (Node × PollStep))
    (n : Node) (dds : DefaultDataSet) : Prop :=
  ∃ moment, moment <+: events ∧ dds = ((networkAfter clocks starts moment).polls n).clock.dds

theorem networkStep_truthful {had : Node → DefaultDataSet → Prop} {w : Network Node}
    {event : Node × PollStep} (truthful : Truthful clocks had w)
    (own : ∀ n, had n (w.polls n).clock.dds) : Truthful clocks had (networkStep clocks w event) := by
  obtain ⟨n, step⟩ := event
  unfold networkStep
  dsimp only
  split
  case isFalse => exact truthful
  case isTrue arrives =>
    have wider : w.sent ⊆ (step.announces (clocks n) (w.polls n)).toList ++ w.sent :=
      List.subset_append_right ..
    constructor
    · intro q
      have earlier : Grounded (clocks q) (Told (clocks q) w.sent) (had q)
          (Function.update w.polls n (pollStep (clocks n) (w.polls n) step) q).clock := by
        by_cases here : q = n
        · subst here
          rw [Function.update_self]
          apply pollStep_grounded _ (own q) (truthful.grounded q)
          intro a answers p m received heeded type near
          have receives : step.receives = some m := by
            simp only [PollStep.receives, answers, received]
          rw [receives] at arrives
          simp only [Option.all_some, Network.carries, type, ne_eq, not_true, decide_false,
            Bool.false_or, List.any_eq_true, decide_eq_true_eq] at arrives
          exact ⟨heeded, type, near, arrives⟩
        · rw [Function.update_of_ne here]
          exact truthful.grounded q
      exact earlier.mono (fun _ _ told => told.mono wider) (fun _ => id)
    · intro m member
      rcases List.mem_append.mp member with new | old
      · obtain ⟨sends, p, rfl⟩ := announces_eq (Option.mem_toList.mp new)
        exact ((truthful.grounded n).pathRight truthful.traced sends).announceOf
      · exact truthful.traced m old
    · intro m member
      rcases List.mem_append.mp member with new | old
      · have announces := Option.mem_toList.mp new
        obtain ⟨_, p, rfl⟩ := announces_eq announces
        rw [announces]
        exact (truthful.grounded n).passed truthful.passed
      · exact (truthful.passed m old).mono (fun _ _ => id) wider

theorem networkAfter_truthful (clocks : Node → Clock) (starts : Node → StartUp)
    (events : List (Node × PollStep)) :
    Truthful clocks (HadThere clocks starts events) (networkAfter clocks starts events) := by
  induction events using List.reverseRecOn with
  | nil =>
    constructor
    · intro n
      apply grounded_start
      exact ⟨[], List.prefix_refl _, (start_dds (clocks n) (starts n)).symm⟩
    · exact fun m member => absurd member List.not_mem_nil
    · exact fun m member => absurd member List.not_mem_nil
  | append_singleton events event inductionHypothesis =>
    have longer : events <+: events ++ [event] := List.prefix_append ..
    have led : networkAfter clocks starts (events ++ [event]) =
        networkStep clocks (networkAfter clocks starts events) event := by
      unfold networkAfter
      rw [List.foldl_append, List.foldl_cons, List.foldl_nil]
    rw [led]
    apply networkStep_truthful
    · exact inductionHypothesis.mono fun n dds ⟨moment, early, had⟩ =>
        ⟨moment, early.trans longer, had⟩
    · exact fun n => ⟨events, longer, rfl⟩

/-- In every run of a network the path of every Announce that was sent names clocks of the network,
each of them once and the sender last, and the path stored by a clock that sends Announces names
others than itself, each of them once.

Proof: an announce that is sent appends its sender to the path that the clock has stored, which is
the path of an announce that the clock did not ignore, so it was not on it. Messages may be delayed,
lost or repeated, as what is said of a path is said of every announce that was ever sent. -/
theorem announce_paths (clocks : Node → Clock) (starts : Node → StartUp)
    (events : List (Node × PollStep)) :
    (∀ m ∈ (networkAfter clocks starts events).sent, TracedRight clocks m) ∧
      ∀ n, (clocks n).type = .ordinary ∨ (clocks n).type = .boundary →
        PathRight clocks (clocks n) ((networkAfter clocks starts events).polls n).clock.path := by
  have truthful := networkAfter_truthful clocks starts events
  exact ⟨truthful.traced, fun n sends => (truthful.grounded n).pathRight truthful.traced sends⟩

/-- In every run of a network every Announce that was sent came, in as many steps as it says are
removed, from a clock of the network that was a grandmaster with the data that it tells; and the
grandmaster that a clock goes by is a clock of the network with data that this one had.

Proof: by induction on the run. A clock that is grandmaster tells its own data; any other one tells
what its parent told with one step more, and its parent is an announce that was sent before. -/
theorem announces_passed (clocks : Node → Clock) (starts : Node → StartUp)
    (events : List (Node × PollStep)) :
    (∀ m ∈ (networkAfter clocks starts events).sent,
      Passed clocks (HadThere clocks starts events) (networkAfter clocks starts events).sent
        m.announce.stepsRemoved.toNat m) ∧
      ∀ n, ∃ h dds, HadThere clocks starts events h dds ∧
        let parent := ((networkAfter clocks starts events).polls n).clock.parent
        parent.grandmasterIdentity = (clocks h).clockIdentity ∧
          parent.grandmasterClockQuality = dds.clockQuality ∧
          parent.grandmasterPriority1 = dds.priority1 ∧
          parent.grandmasterPriority2 = dds.priority2 := by
  have truthful := networkAfter_truthful clocks starts events
  refine ⟨truthful.passed, fun n => ?_⟩
  rcases (truthful.grounded n).parent with ⟨dds, own, _, parent⟩ | ⟨p, m, told, _, parent⟩
  · refine ⟨n, dds, own, ?_⟩
    rw [parent]
    exact ⟨rfl, rfl, rfl, rfl⟩
  · obtain ⟨earlier, member, same⟩ := told.sent
    have announce : earlier.announce = m.announce := congrArg (fun tells => tells.2.1) same
    obtain ⟨h, dds, own, data⟩ := (truthful.passed earlier member).origin_named
    refine ⟨h, dds, own, ?_⟩
    rw [parent]
    rw [announce] at data
    exact data

end Networks

end LinuxPtp
