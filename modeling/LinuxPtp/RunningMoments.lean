import Mathlib.Algebra.BigOperators.Group.List.Basic
import Mathlib.Algebra.Order.Field.Basic
import Mathlib.Tactic.FieldSimp
import Mathlib.Tactic.Linarith
import Mathlib.Tactic.Ring

/-!
# Mean and deviations of a growing list

What is known of a list is enough to find its mean and the sum of its squared deviations when it
grows by a value, without going through the list again.
-/

namespace RunningMoments

variable {K : Type*}

section Sums

variable [Field K]

/-- The mean, which is zero for no values. -/
def mean (values : List K) : K := values.sum / values.length

/-- The sum of the squares. -/
def squares (values : List K) : K := (values.map fun x => x * x).sum

/-- The sum of the squared distances from a value. -/
def spread (centre : K) (values : List K) : K :=
  (values.map fun x => (x - centre) * (x - centre)).sum

/-- The sum of the squared deviations from the mean. -/
def deviations (values : List K) : K := spread (mean values) values

theorem spread_eq (centre : K) (values : List K) :
    spread centre values =
      squares values - 2 * centre * values.sum + values.length * (centre * centre) := by
  induction values with
  | nil => simp [spread, squares]
  | cons x rest inductionHypothesis =>
    unfold spread squares at inductionHypothesis ⊢
    simp only [List.map_cons, List.sum_cons, List.length_cons, Nat.cast_add, Nat.cast_one,
      inductionHypothesis]
    ring

variable [CharZero K]

theorem sum_eq_mean (values : List K) : values.sum = values.length * mean values := by
  cases values with
  | nil => simp [mean]
  | cons x rest =>
    have counted : ((x :: rest).length : K) ≠ 0 := by
      rw [List.length_cons, Nat.cast_add, Nat.cast_one]
      exact Nat.cast_add_one_ne_zero rest.length
    unfold mean
    field_simp

/-- The mean moves by a part of the distance of the new value. -/
theorem mean_cons (x : K) (values : List K) :
    mean (x :: values) = mean values + (x - mean values) / (values.length + 1) := by
  have counted : (values.length : K) + 1 ≠ 0 := Nat.cast_add_one_ne_zero _
  have sum := sum_eq_mean values
  unfold mean at sum ⊢
  rw [List.sum_cons, List.length_cons, sum]
  push_cast
  field_simp
  ring

/-- The deviations grow by the product of the distances from the old mean and the new one. -/
theorem deviations_cons (x : K) (values : List K) :
    deviations (x :: values) =
      deviations values + (x - mean values) * (x - mean (x :: values)) := by
  have counted : (values.length : K) + 1 ≠ 0 := Nat.cast_add_one_ne_zero _
  have sum := sum_eq_mean values
  unfold deviations
  rw [spread_eq, spread_eq, mean_cons, List.sum_cons, List.length_cons, sum]
  unfold squares
  rw [List.map_cons, List.sum_cons]
  push_cast
  field_simp
  ring

end Sums

section Extremes

variable [Field K] [LinearOrder K] [IsStrictOrderedRing K]

/-- The greatest absolute value is that of the greatest value or of the least. -/
theorem max_abs {values : List K} {least greatest : K} (low : values.min? = some least)
    (high : values.max? = some greatest) :
    (values.map fun x => |x|).max? = some (max greatest (-least)) := by
  obtain ⟨here, above⟩ := List.max?_eq_some_iff.mp high
  obtain ⟨there, below⟩ := List.min?_eq_some_iff.mp low
  rw [List.max?_eq_some_iff]
  have between : least ≤ greatest := below greatest here
  constructor
  · rcases le_total (-least) greatest with upper | lower
    · rw [max_eq_left upper, List.mem_map]
      refine ⟨greatest, here, abs_of_nonneg ?_⟩
      linarith
    · rw [max_eq_right lower, List.mem_map]
      refine ⟨least, there, abs_of_nonpos ?_⟩
      linarith
  · intro distance member
    obtain ⟨x, listed, rfl⟩ := List.mem_map.mp member
    rw [abs_le']
    exact ⟨(above x listed).trans (le_max_left ..),
      (neg_le_neg (below x listed)).trans (le_max_right ..)⟩

end Extremes

end RunningMoments
