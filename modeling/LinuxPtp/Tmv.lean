import Mathlib.Algebra.Group.Int.Defs
import Mathlib.Algebra.Group.Nat.Defs

/-!
# Time values

A time value of `tmv.h` is a number of nanoseconds in 64 bits with a sign. Sums and differences
that do not fit wrap around; quotients by a positive divisor always fit.
-/

namespace LinuxPtp

/-- `NS_PER_SEC`. -/
def nsPerSec : Nat := 1000000000

/-- `correction_to_tmv`. -/
def correctionToTmv (correction : Int) : Int := correction / 2 ^ 16

namespace Tmv

/-- A number in 64 bits with a sign. -/
def int64 (number : Int) : Int := number.bmod (2 ^ 64)

/-- A number that 64 bits with a sign can hold. -/
def Fits (number : Int) : Prop := -2 ^ 63 ≤ number ∧ number < 2 ^ 63

instance (number : Int) : Decidable (Fits number) := inferInstanceAs (Decidable (_ ∧ _))

/-- `tmv_add`. -/
def tmvAdd (a b : Int) : Int := int64 (a + b)

/-- `tmv_sub`. -/
def tmvSub (a b : Int) : Int := int64 (a - b)

/-- `tmv_div`. -/
def tmvDiv (a : Int) (divisor : Nat) : Int := a.tdiv divisor

/-- `tmv_cmp`. -/
def tmvCmp (a b : Int) : Int := if a = b then 0 else if b < a then 1 else -1

/-- `tmv_to_TimeInterval`. -/
def tmvToTimeInterval (x : Int) : Int := int64 (x * 2 ^ 16)

/-- `timespec_to_tmv`. -/
def timespecToTmv (sec nsec : Int) : Int := int64 (sec * 1000000000 + nsec)

variable {number a b : Int}

/-- A number that fits into 64 bits is itself there. -/
theorem int64_of_fits (fits : Fits number) : int64 number = number := by
  obtain ⟨low, high⟩ := fits
  exact Int.bmod_eq_of_le (by omega) (by omega)

@[simp] theorem int64_add_left : int64 (int64 a + b) = int64 (a + b) := Int.bmod_add_bmod

@[simp] theorem int64_sub_left : int64 (int64 a - b) = int64 (a - b) := Int.bmod_sub_bmod

/-- Times are compared as numbers. -/
theorem tmvCmp_le : tmvCmp a b ≤ 0 ↔ a ≤ b := by
  rw [tmvCmp]
  split
  · omega
  · split <;> omega

end Tmv

end LinuxPtp
