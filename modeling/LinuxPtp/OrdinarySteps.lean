import LinuxPtp.ClockRuns

/-!
# Steps other than the state decision

While a descriptor is handled or a fault timer expires, no port comes to follow a master that it
did not follow before, and a message that gets to a handler is one that the port does not ignore.

These are the two facts about a step that most invariants need, stated so that no handler has to
be unfolded again.
-/

namespace LinuxPtp

section Steps

variable {c : Clock} {a : Answers}

/-- A port does not ignore a message, whatever it is capable of. -/
def Heeded (c : Clock) (p : Nat) (m : PtpMessage) : Prop :=
  match c.type with
  | .ordinary | .boundary => portIgnore c true p m = false
  | .e2e | .p2p => tcIgnore c p m = false

/-- Guards under which no port comes to follow a master, and nothing is delivered but what was
received and not ignored. -/
def Guards.undecided (c : Clock) (a : Answers) (before : ClockState) (here : Nat) : Guards :=
  { Guards.free before here with
    follows := fun _ => False
    delivers := fun m => a.received = .message m ∧ Heeded c here m }

/-- The answers with which a step is made. -/
def PollStep.answers : PollStep → Option Answers
  | .enter _ => none
  | .descriptor _ _ a | .faultTimer _ a | .uds _ a | .decide a => some a

/-- What is delivered to a handler was received and not ignored. -/
theorem heeded_of_delivered {p : Nat} {fd : Descriptor} {s : ClockState} {msg : PtpMessage}
    (arrived : delivered c a p fd s = some msg) : a.received = .message msg ∧ Heeded c p msg := by
  unfold delivered at arrived
  split at arrived
  · cases arrived
  split at arrived
  · cases arrived
  · cases arrived
  next received came =>
    dsimp only at arrived
    unfold Heeded
    cases type : c.type with
    | ordinary | boundary =>
      rw [type] at arrived
      dsimp only at arrived ⊢
      split at arrived
      · cases arrived
      next heeded =>
        cases arrived
        refine ⟨came, ?_⟩
        unfold portIgnore at heeded ⊢
        simp only [Bool.not_eq_true, Bool.or_eq_false_iff] at heeded ⊢
        exact ⟨⟨rfl, heeded.1.2⟩, heeded.2⟩
    | e2e | p2p =>
      rw [type] at arrived
      dsimp only at arrived ⊢
      split at arrived
      · cases arrived
      next heeded =>
        cases arrived
        simp only [Bool.not_eq_true, Bool.or_eq_false_iff] at heeded
        exact ⟨came, heeded.2⟩

theorem Heeded.not_ignored {p : Nat} {m : PtpMessage} (heeded : Heeded c p m) :
    tcIgnore c p m = false := by
  unfold Heeded at heeded
  split at heeded
  · unfold portIgnore at heeded
    simp only [Bool.or_eq_false_iff] at heeded
    exact heeded.2
  · unfold portIgnore at heeded
    simp only [Bool.or_eq_false_iff] at heeded
    exact heeded.2
  · exact heeded
  · exact heeded

theorem allowsStep_undecided (before : ClockState) (p : Nat) (fd : Descriptor) :
    AllowsStep c a (Guards.undecided c a before p) fd := by
  refine ⟨⟨⟨?switches, ?egress, ?monitor, ?slips⟩, fun _ _ _ _ => trivial, ?delivers⟩, ?faulted,
    fun _ _ => trivial⟩
  case delivers => exact fun msg arrived => heeded_of_delivered arrived
  all_goals
    intros
    trivial

/-- A step other than the decision preserves what effects, timers and ports that keep their states
do not touch. -/
theorem pollStep_undecided (Invariant : ClockState → Prop) {s : PollState} {step : PollStep}
    (other : ∀ a, step ≠ .decide a)
    (effect : ∀ a, step.answers = some a → ∀ p before s t,
      Effect c a (Guards.undecided c a before p) s t → Invariant s → Invariant t)
    (arm : ∀ p s, Invariant s → Invariant (armFault c p s))
    (disarm : ∀ p s, Invariant s → Invariant (disarmFault p s)) (before : Invariant s.clock) :
    Invariant (pollStep c s step).clock := by
  cases step with
  | enter p => exact before
  | descriptor p fd a =>
    apply pollStep_descriptor Invariant before
    · intro _
      have work : Works c a (Guards.undecided c a s.clock p) s.clock
          (handleDescriptor c a p fd s.clock) :=
        handleDescriptor_works (allowsStep_undecided s.clock p fd) rfl
      exact work.effects.keeps before fun _ _ => effect a rfl p _ _ _
    · exact arm p
  | faultTimer p a =>
    have work : Works c a (Guards.undecided c a (disarmFault p s.clock) p) (disarmFault p s.clock)
        (handleFaultTimer c a p s.clock) := handleFaultTimer_works rfl fun _ _ => trivial
    exact work.effects.keeps (disarm p _ before) fun _ _ => effect a rfl p _ _ _
  | uds fd a =>
    have allows := allowsStep_undecided (c := c) (a := a) s.clock 0 fd
    have work : Works c a (Guards.undecided c a s.clock 0) s.clock (handleUds c a fd s.clock) :=
      handleUds_works allows.toAllowsDescriptor rfl rfl
    exact work.effects.keeps before fun _ _ => effect a rfl 0 _ _ _
  | decide a => exact absurd rfl (other a)

end Steps

end LinuxPtp
