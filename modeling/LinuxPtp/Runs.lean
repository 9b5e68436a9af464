/-!
# Runs of a deterministic system

A system takes one event after another. A condition on states and events may be
asked of every step of a run; an invariant that such steps keep holds at its end.
-/

namespace Runs

universe u v
variable {σ : Type u} {ε : Type v}

/-- Every step of a run meets a condition on the state before it and its event. -/
def Along (step : σ → ε → σ) (condition : σ → ε → Prop) : σ → List ε → Prop
  | _, [] => True
  | state, event :: events =>
    condition state event ∧ Along step condition (step state event) events

instance decidableAlong (step : σ → ε → σ) (condition : σ → ε → Prop)
    [decide : ∀ state event, Decidable (condition state event)] :
    ∀ state events, Decidable (Along step condition state events)
  | _, [] => .isTrue trivial
  | state, event :: events =>
    have := decidableAlong step condition (step state event) events
    inferInstanceAs (Decidable (_ ∧ _))

variable {step : σ → ε → σ} {condition other : σ → ε → Prop} {state : σ} {events : List ε}

/-- What every permitted step keeps holds after the run. -/
theorem Along.keeps (along : Along step condition state events) {Invariant : σ → Prop}
    (initially : Invariant state)
    (keeps : ∀ state event, Invariant state → condition state event →
      Invariant (step state event)) :
    Invariant (events.foldl step state) := by
  induction events generalizing state with
  | nil => exact initially
  | cons event events inductionHypothesis =>
    obtain ⟨here, rest⟩ := along
    exact inductionHypothesis rest (keeps state event initially here)

/-- A condition that every event of a run meets in every state. -/
theorem along_of_forall (every : ∀ event ∈ events, ∀ state, condition state event) :
    Along step condition state events := by
  induction events generalizing state with
  | nil => trivial
  | cons event events inductionHypothesis =>
    exact ⟨every event List.mem_cons_self state,
      inductionHypothesis fun event member => every event (List.mem_cons_of_mem _ member)⟩

/-- Conditions that agree wherever an invariant holds agree along every run from there. -/
theorem along_congr {Invariant : σ → Prop} (initially : Invariant state)
    (keeps : ∀ state event, Invariant state → Invariant (step state event))
    (agree : ∀ state event, Invariant state → (condition state event ↔ other state event)) :
    Along step condition state events ↔ Along step other state events := by
  induction events generalizing state with
  | nil => exact Iff.rfl
  | cons event events inductionHypothesis =>
    exact and_congr (agree state event initially) (inductionHypothesis (keeps state event initially))

/-- What holds at a moment has held from the beginning, or ever since the last moment at which it did
not. -/
theorem held_since (P : Nat → Prop) {now : Nat} (holds : P now) :
    (∀ moment ≤ now, P moment) ∨
      ∃ last < now, ¬P last ∧ ∀ moment, last < moment → moment ≤ now → P moment := by
  induction now with
  | zero =>
    left
    intro moment early
    rwa [Nat.le_zero.mp early]
  | succ now inductionHypothesis =>
    by_cases before : P now
    · rcases inductionHypothesis before with always | ⟨last, earlier, sound, since⟩
      · left
        intro moment upTo
        rcases Nat.le_succ_iff.mp upTo with upTo | rfl
        · exact always moment upTo
        · exact holds
      · refine Or.inr ⟨last, Nat.lt_succ_of_lt earlier, sound, fun moment later upTo => ?_⟩
        rcases Nat.le_succ_iff.mp upTo with upTo | rfl
        · exact since moment later upTo
        · exact holds
    · refine Or.inr ⟨now, Nat.lt_succ_self now, before, fun moment later upTo => ?_⟩
      rwa [Nat.le_antisymm upTo later]

end Runs
