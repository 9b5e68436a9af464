import Mathlib.Algebra.Order.Archimedean.Basic
import Mathlib.Tactic.FieldSimp
import Mathlib.Tactic.Linarith
import Mathlib.Tactic.Positivity
import Mathlib.Tactic.Ring

/-!
# Damped recurrences

Each term of a sequence is found from the two before it, up to an error. If the recurrence is
damped, a quadratic form in two successive terms shrinks by a factor from step to step but for what
the errors add. The sequence ends within a bound that is in proportion to the largest error.

The numbers are those of an ordered field, Archimedean where a bound is to be reached. The
conditions on the two factors are those under which the quadratic form is positive and shrinks; they
are the triangle in which both roots lie inside the unit circle.
-/

namespace DampedRecurrences

universe u
variable {K : Type u} [Field K] [LinearOrder K]

/-- Both roots of `z ^ 2 + p * z + q` are inside of the unit circle. -/
structure Damped (p q : K) : Prop where
  above : -1 < q
  below : q < 1
  least : -(1 + q) < p
  most : p < 1 + q

/-- Every term follows from the two before it, up to an error. -/
def Recurs (p q error : K) (x : ℕ → K) : Prop :=
  ∀ n, |x (n + 2) + p * x (n + 1) + q * x n| ≤ error

/-- What the energy loses in proportion to the squares of the terms. -/
def loss (p q : K) : K := (1 - q) * ((1 + q) ^ 2 - p ^ 2) / 2

/-- The energy of two successive terms. -/
def energy (p q x y : K) : K :=
  (1 + q) * y ^ 2 + 2 * p * q * x * y + (q ^ 2 * (1 + q) + loss p q) * x ^ 2

/-- How far the squares of the errors get into the squares of the terms. -/
def gain (p q : K) : K := 20 * (loss p q + 8) / loss p q ^ 3

variable [IsStrictOrderedRing K] {p q x y : K}

namespace Damped

theorem square_less (damped : Damped p q) : p ^ 2 < (1 + q) ^ 2 := by
  have lower := damped.least
  have upper := damped.most
  nlinarith

theorem loss_pos (damped : Damped p q) : 0 < loss p q := by
  have shrinks : 0 < 1 - q := sub_pos.mpr damped.below
  have room : 0 < (1 + q) ^ 2 - p ^ 2 := sub_pos.mpr damped.square_less
  unfold loss
  positivity

theorem loss_le_one (damped : Damped p q) : loss p q ≤ 1 := by
  have lower := damped.above
  have upper := damped.below
  unfold loss
  nlinarith [sq_nonneg p, sq_nonneg q, mul_pos (sub_pos.mpr upper) (neg_lt_iff_pos_add'.mp lower)]

theorem gain_pos (damped : Damped p q) : 0 < gain p q := by
  have positive := damped.loss_pos
  unfold gain
  positivity

/-- The coefficients by which an error gets into the energy. -/
theorem coefficients_le (damped : Damped p q) : p ^ 2 ≤ 2 ^ 2 ∧ (q * (1 + q)) ^ 2 ≤ 2 ^ 2 := by
  obtain ⟨above, below, least, most⟩ := damped
  constructor
  · exact sq_le_sq' (by linarith) (by linarith)
  · exact sq_le_sq' (by nlinarith) (by nlinarith)

theorem energy_least (damped : Damped p q) (x y : K) : loss p q * x ^ 2 ≤ energy p q x y := by
  have positive : 0 < 1 + q := neg_lt_iff_pos_add'.mp damped.above
  have square : (1 + q) * (energy p q x y - loss p q * x ^ 2) =
      ((1 + q) * y + p * q * x) ^ 2 + ((1 + q) ^ 2 - p ^ 2) * (q * x) ^ 2 := by
    unfold energy
    ring
  have room : 0 ≤ (1 + q) ^ 2 - p ^ 2 := (sub_pos.mpr damped.square_less).le
  have least : 0 ≤ (1 + q) * (energy p q x y - loss p q * x ^ 2) := by
    rw [square]
    positivity
  exact sub_nonneg.mp (nonneg_of_mul_nonneg_right least positive)

theorem energy_most (damped : Damped p q) (x y : K) : energy p q x y ≤ 5 * (x ^ 2 + y ^ 2) := by
  obtain ⟨above, below, least, most⟩ := damped
  have bounded : |p * q| ≤ 2 := by
    rw [abs_mul]
    have first : |p| ≤ 2 := abs_le.mpr ⟨by linarith, by linarith⟩
    have second : |q| ≤ 1 := abs_le.mpr ⟨above.le, below.le⟩
    calc |p| * |q| ≤ 2 * 1 := mul_le_mul first second (abs_nonneg q) zero_le_two
      _ = 2 := mul_one 2
  have mixed : 2 * p * q * x * y ≤ 2 * (x ^ 2 + y ^ 2) := by
    have squares : |2 * x * y| ≤ x ^ 2 + y ^ 2 := by
      rw [abs_le]
      constructor <;> nlinarith [sq_nonneg (x + y), sq_nonneg (x - y)]
    calc 2 * p * q * x * y = p * q * (2 * x * y) := by ring
      _ ≤ |p * q * (2 * x * y)| := le_abs_self _
      _ = |p * q| * |2 * x * y| := abs_mul ..
      _ ≤ 2 * (x ^ 2 + y ^ 2) := mul_le_mul bounded squares (abs_nonneg _) zero_le_two
  have lost : loss p q * x ^ 2 ≤ 1 * x ^ 2 :=
    mul_le_mul_of_nonneg_right (loss_le_one ⟨above, below, least, most⟩) (sq_nonneg x)
  have rest : q ^ 2 * (1 + q) * x ^ 2 ≤ 2 * x ^ 2 := by
    apply mul_le_mul_of_nonneg_right _ (sq_nonneg x)
    nlinarith
  have last : (1 + q) * y ^ 2 ≤ 2 * y ^ 2 := mul_le_mul_of_nonneg_right (by linarith) (sq_nonneg y)
  unfold energy
  linarith [sq_nonneg y]

end Damped

/-- Without an error the energy loses the squares of the terms in proportion. -/
theorem energy_next (p q x y w : K) : energy p q y (w - p * y - q * x) =
    energy p q x y - loss p q * (x ^ 2 + y ^ 2) - 2 * w * (p * y) - 2 * w * (q * (1 + q) * x) +
      (1 + q) * w ^ 2 := by
  unfold energy loss
  ring

/-- A product against the squares of its factors. -/
theorem young {d : K} (positive : 0 < d) (u v : K) :
    -(2 * u * v) ≤ d / 2 * v ^ 2 + 2 / d * u ^ 2 := by
  have square : d / 2 * v ^ 2 + 2 / d * u ^ 2 + 2 * u * v = d / 2 * (v + 2 / d * u) ^ 2 := by
    field_simp
    ring
  have least : 0 ≤ d / 2 * (v + 2 / d * u) ^ 2 := by positivity
  linarith

/-- An error adds to the energy what is in proportion to its square. -/
theorem Damped.energy_step (damped : Damped p q) {w error : K} (small : |w| ≤ error) (x y : K) :
    energy p q y (w - p * y - q * x) ≤
      (1 - loss p q / 10) * energy p q x y + (2 + 16 / loss p q) * error ^ 2 := by
  have positive : 0 < loss p q := damped.loss_pos
  have square : w ^ 2 ≤ error ^ 2 := sq_le_sq' (abs_le.mp small).1 (abs_le.mp small).2
  have crossed (r z : K) (coefficient : r ^ 2 ≤ 2 ^ 2) :
      -(2 * (w * r) * z) ≤ loss p q / 2 * z ^ 2 + 8 / loss p q * w ^ 2 := by
    have bounded : 2 / loss p q * (r ^ 2 * w ^ 2) ≤ 2 / loss p q * (2 ^ 2 * w ^ 2) :=
      mul_le_mul_of_nonneg_left (mul_le_mul_of_nonneg_right coefficient (sq_nonneg w))
        (by positivity)
    calc -(2 * (w * r) * z) ≤ loss p q / 2 * z ^ 2 + 2 / loss p q * (w * r) ^ 2 :=
          young positive (w * r) z
      _ = loss p q / 2 * z ^ 2 + 2 / loss p q * (r ^ 2 * w ^ 2) := by ring
      _ ≤ loss p q / 2 * z ^ 2 + 2 / loss p q * (2 ^ 2 * w ^ 2) := by linarith
      _ = loss p q / 2 * z ^ 2 + 8 / loss p q * w ^ 2 := by ring
  have first := crossed p y damped.coefficients_le.1
  have second := crossed (q * (1 + q)) x damped.coefficients_le.2
  have last : (1 + q) * w ^ 2 ≤ 2 * w ^ 2 :=
    mul_le_mul_of_nonneg_right (by linarith [damped.below]) (sq_nonneg w)
  have spent : loss p q / 10 * energy p q x y ≤ loss p q / 2 * (x ^ 2 + y ^ 2) := by
    calc loss p q / 10 * energy p q x y ≤ loss p q / 10 * (5 * (x ^ 2 + y ^ 2)) :=
          mul_le_mul_of_nonneg_left (damped.energy_most x y) (by positivity)
      _ = loss p q / 2 * (x ^ 2 + y ^ 2) := by ring
  have errors : (2 + 16 / loss p q) * w ^ 2 ≤ (2 + 16 / loss p q) * error ^ 2 :=
    mul_le_mul_of_nonneg_left square (by positivity)
  rw [energy_next]
  have parts : (2 + 16 / loss p q) * w ^ 2 =
      2 * w ^ 2 + 8 / loss p q * w ^ 2 + 8 / loss p q * w ^ 2 := by ring
  linarith

/-! ## Sequences -/

variable {error : K} {sequence : ℕ → K}

theorem Recurs.error_nonneg (follows : Recurs p q error sequence) : 0 ≤ error :=
  (abs_nonneg _).trans (follows 0)

/-- The square of a term is bounded by what is left of the first energy and what errors add. -/
theorem Recurs.square_le (follows : Recurs p q error sequence) (damped : Damped p q) (n : ℕ) :
    sequence n ^ 2 ≤ (1 - loss p q / 10) ^ n *
      (energy p q (sequence 0) (sequence 1) / loss p q) + gain p q * error ^ 2 := by
  have positive : 0 < loss p q := damped.loss_pos
  have shrinks : 0 ≤ 1 - loss p q / 10 := by linarith [damped.loss_le_one]
  have bounded (n : ℕ) : energy p q (sequence n) (sequence (n + 1)) ≤
      (1 - loss p q / 10) ^ n * energy p q (sequence 0) (sequence 1) +
        gain p q * loss p q * error ^ 2 := by
    induction n with
    | zero =>
      have most : 0 ≤ gain p q * loss p q * error ^ 2 := by
        have := damped.gain_pos
        positivity
      linarith
    | succ n inductionHypothesis =>
      have next : sequence (n + 2) =
          (sequence (n + 2) + p * sequence (n + 1) + q * sequence n) - p * sequence (n + 1) -
            q * sequence n := by ring
      have step := damped.energy_step (follows n) (sequence n) (sequence (n + 1))
      rw [← next] at step
      have kept := mul_le_mul_of_nonneg_left inductionHypothesis shrinks
      have balanced : (1 - loss p q / 10) * (gain p q * loss p q * error ^ 2) +
          (2 + 16 / loss p q) * error ^ 2 = gain p q * loss p q * error ^ 2 := by
        unfold gain
        field_simp
        ring
      have power : (1 - loss p q / 10) ^ (n + 1) * energy p q (sequence 0) (sequence 1) =
          (1 - loss p q / 10) *
            ((1 - loss p q / 10) ^ n * energy p q (sequence 0) (sequence 1)) := by ring
      linarith
  have least := damped.energy_least (sequence n) (sequence (n + 1))
  have both := least.trans (bounded n)
  have scaled : loss p q * sequence n ^ 2 ≤ loss p q * ((1 - loss p q / 10) ^ n *
      (energy p q (sequence 0) (sequence 1) / loss p q) + gain p q * error ^ 2) := by
    calc loss p q * sequence n ^ 2 ≤ (1 - loss p q / 10) ^ n *
          energy p q (sequence 0) (sequence 1) + gain p q * loss p q * error ^ 2 := both
      _ = loss p q * ((1 - loss p q / 10) ^ n *
          (energy p q (sequence 0) (sequence 1) / loss p q) + gain p q * error ^ 2) := by
        field_simp
  exact le_of_mul_le_mul_left scaled positive

/-- In the end the terms are in proportion to the largest error. -/
theorem Recurs.settles [Archimedean K] (follows : Recurs p q error sequence)
    (damped : Damped p q) {margin : K} (positive : 0 < margin) :
    ∃ first, ∀ n ≥ first, |sequence n| ≤ (gain p q + 1) * error + margin := by
  have nonneg : 0 ≤ error := follows.error_nonneg
  have gained : 0 < gain p q := damped.gain_pos
  have lost : 0 < loss p q := damped.loss_pos
  obtain ⟨start, begins⟩ : ∃ start, start = energy p q (sequence 0) (sequence 1) / loss p q :=
    ⟨_, rfl⟩
  have shrinks : 0 ≤ 1 - loss p q / 10 := by linarith [damped.loss_le_one]
  have less : 1 - loss p q / 10 < 1 := by linarith
  have room : 0 < margin ^ 2 / (|start| + 1) := by positivity
  obtain ⟨first, small⟩ := exists_pow_lt_of_lt_one room less
  refine ⟨first, fun n late => ?_⟩
  have square := follows.square_le damped n
  rw [← begins] at square
  have left : (1 - loss p q / 10) ^ n * start ≤ margin ^ 2 := by
    have power : (1 - loss p q / 10) ^ n ≤ margin ^ 2 / (|start| + 1) :=
      (pow_le_pow_of_le_one shrinks less.le late).trans small.le
    calc (1 - loss p q / 10) ^ n * start ≤ (1 - loss p q / 10) ^ n * (|start| + 1) :=
          mul_le_mul_of_nonneg_left (by linarith [le_abs_self start]) (pow_nonneg shrinks n)
      _ ≤ margin ^ 2 / (|start| + 1) * (|start| + 1) :=
          mul_le_mul_of_nonneg_right power (by positivity)
      _ = margin ^ 2 := by field_simp
  apply abs_le_of_sq_le_sq _ (by positivity)
  nlinarith [mul_nonneg nonneg positive.le, mul_nonneg gained.le (sq_nonneg error),
    mul_nonneg (mul_nonneg gained.le gained.le) (sq_nonneg error), sq_nonneg error,
    mul_nonneg gained.le (mul_nonneg nonneg positive.le)]

end DampedRecurrences
