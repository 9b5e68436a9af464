import Mathlib.Data.List.Basic

/-!
# Places in a list

A walk over a list that remembers where it last saw a member of some kind, and a kind that occurs
at most once.
-/

namespace Places

universe u
variable {α : Type u} {p : α → Bool} {as : List α}

/-- The place of the last member that meets a condition. -/
def lastIdx (p : α → Bool) : List α → Option Nat
  | [] => none
  | a :: as => ((lastIdx p as).map (· + 1)).or (if p a then some 0 else none)

theorem lastIdx_none :
    lastIdx p as = none ↔ ∀ a ∈ as, ¬ p a := by
  induction as with
  | nil => simp [lastIdx]
  | cons a as inductionHypothesis =>
    simp only [lastIdx, Option.or_eq_none_iff, Option.map_eq_none_iff, inductionHypothesis,
      List.forall_mem_cons]
    by_cases here : p a <;> simp [here]

theorem lastIdx_some {place : Nat} (found : lastIdx p as = some place) :
    ∃ a, as[place]? = some a ∧ p a := by
  induction as generalizing place with
  | nil => cases found
  | cons a as inductionHypothesis =>
    rw [lastIdx] at found
    cases later : lastIdx p as with
    | some other =>
      rw [later] at found
      obtain rfl := Option.some.inj found
      exact inductionHypothesis later
    | none =>
      rw [later] at found
      by_cases here : p a
      · rw [if_pos here] at found
        obtain rfl := Option.some.inj found
        exact ⟨a, rfl, here⟩
      · rw [if_neg here] at found
        cases found

/-- At most one member meets a condition. -/
theorem place_unique (single : as.countP p ≤ 1) {i j : Nat} {a b : α}
    (first : as[i]? = some a) (holds : p a) (second : as[j]? = some b) (also : p b) :
    i = j := by
  induction as generalizing i j with
  | nil => cases first
  | cons head as inductionHypothesis =>
    rw [List.countP_cons] at single
    have absent : p head → ∀ {place : Nat} {d : α}, as[place]? = some d → ¬ p d := by
      intro here place d member met
      have positive := List.countP_pos_iff.mpr ⟨d, List.mem_of_getElem? member, met⟩
      rw [if_pos here] at single
      omega
    rcases i with _ | i <;> rcases j with _ | j
    · rfl
    · obtain rfl := Option.some.inj first
      exact absurd also (absent holds second)
    · obtain rfl := Option.some.inj second
      exact absurd holds (absent also first)
    · exact congrArg (· + 1) (inductionHypothesis (by omega) first second)

end Places
