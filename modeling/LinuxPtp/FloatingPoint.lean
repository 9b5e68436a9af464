import Mathlib.Algebra.Order.Ring.Rat
import Mathlib.Data.Rat.Cast.Order
import Mathlib.Data.Rat.Floor

/-!
# Floating point numbers

A program is written for any numbers that have the operations of `double`. The laws are among those
that hold of `double` as well, with its rounding and with what is not a number: there are none for
sums, products and quotients.

What is proved of every such type of numbers is true of the code with its rounding. What needs
exact sums and products is proved of the rational numbers, and says so; the power is then any
function that is positive.
-/

namespace FloatingPoint

universe u

/-- The operations on `double`, and their laws. The relations are those of the code: nothing is less
than what is not a number, nor does it equal anything. -/
class Double (F : Type u) extends Add F, Sub F, Mul F, Div F, Neg F, LT F, BEq F, IntCast F,
    OfScientific F where
  decideLess (x y : F) : Decidable (x < y)
  fabs : F → F
  pow : F → F → F
  /-- A number as an integer, without its fraction. -/
  truncate : F → Int
  not_less_self (x : F) : ¬ x < x
  less_trans (x y z : F) : x < y → y < z → x < z
  neg_twice (x : F) : - -x = x
  neg_less_neg (x y : F) : -x < -y ↔ y < x
  zero_beq : ((0.0 : F) == 0.0) = true
  cast_zero : ((0 : Int) : F) = 0.0
  less_of_cast (m n : Int) : (m : F) < n → m < n
  less_neg_of_cast (m n : Int) : (m : F) < -(n : F) → m < -n
  cast_between (m n : Int) (x : F) : (m : F) < x → (m : F) < n ∨ (n : F) < x

export Double (fabs pow truncate)

instance decidableLess {F : Type u} [Double F] (x y : F) : Decidable (x < y) :=
  Double.decideLess x y

/-- A power on rational numbers. That of a fraction need not be rational, so what is said of exact
arithmetic is said of every function that has a power above zero for a base above zero. -/
class Power where
  power : ℚ → ℚ → ℚ
  positive (x y : ℚ) : 0 < x → 0 < power x y

/-- The power of whole exponents, for runs on fixed inputs. -/
instance (priority := low) wholePower : Power where
  power x y := x ^ ⌊y⌋
  positive _ y base := zpow_pos base ⌊y⌋

/-- Rational numbers, on which every operation is exact; the power is given. -/
instance [Power] : Double ℚ where
  decideLess := fun x y => inferInstanceAs (Decidable (x < y))
  fabs := fun x => |x|
  pow := Power.power
  truncate := fun x => x.num.tdiv x.den
  not_less_self := lt_irrefl
  less_trans := fun _ _ _ => lt_trans
  neg_twice := neg_neg
  neg_less_neg := fun _ _ => neg_lt_neg_iff
  zero_beq := by simp
  cast_zero := by norm_num
  less_of_cast := fun _ _ less => Int.cast_lt.mp less
  less_neg_of_cast := fun _ _ less => by exact_mod_cast less
  cast_between := fun m n _ less =>
    (lt_or_ge (m : ℚ) n).imp_right fun not_less => not_less.trans_lt less

section Limits

variable {F : Type u} [Double F] {limit other x : F}

/-- Not beyond a limit in either direction. -/
def Within (limit x : F) : Prop := ¬ x < -limit ∧ ¬ limit < x

theorem less_neg_comm : x < -limit ↔ limit < -x := by
  rw [← Double.neg_less_neg, Double.neg_twice]

theorem Within.neg (within : Within limit x) : Within limit (-x) := by
  obtain ⟨low, high⟩ := within
  refine ⟨fun less => high ((Double.neg_less_neg ..).mp less), fun less => low ?_⟩
  exact less_neg_comm.mpr less

theorem Within.mono (within : Within limit x) (most : ∀ y, other < y → limit < y) :
    Within other x := by
  obtain ⟨low, high⟩ := within
  refine ⟨fun less => low ?_, fun less => high (most x less)⟩
  exact less_neg_comm.mpr (most _ (less_neg_comm.mp less))

/-- A limit with room for zero. -/
def Limits (limit : F) : Prop := ¬ limit < -limit ∧ Within limit 0.0

/-- An integer that is not negative is a limit. -/
theorem limits_cast {n : Int} (positive : 0 ≤ n) : Limits (n : F) := by
  refine ⟨fun less => ?_, fun less => ?_, fun less => ?_⟩
  · have below := Double.less_neg_of_cast _ _ less
    omega
  · rw [← Double.cast_zero] at less
    have below := Double.less_neg_of_cast _ _ less
    omega
  · rw [← Double.cast_zero] at less
    have below := Double.less_of_cast _ _ less
    omega

/-- A number that is cut where it is below its range, and else where it is above. -/
theorem Limits.cut_low (limits : Limits limit) :
    Within limit (if x < -limit then -limit else if limit < x then limit else x) := by
  split
  · exact ⟨Double.not_less_self _, limits.1⟩
  split
  · exact ⟨limits.1, Double.not_less_self _⟩
  next low high => exact ⟨low, high⟩

/-- A number that is cut where it is above its range, and else where it is below. -/
theorem Limits.cut_high (limits : Limits limit) :
    Within limit (if limit < x then limit else if x < -limit then -limit else x) := by
  split
  · exact ⟨limits.1, Double.not_less_self _⟩
  split
  · exact ⟨Double.not_less_self _, limits.1⟩
  next high low => exact ⟨low, high⟩

end Limits

end FloatingPoint
