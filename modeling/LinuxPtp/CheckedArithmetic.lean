import Mathlib.Algebra.Group.Int.Defs
import Mathlib.Algebra.Group.Nat.Defs
import Mathlib.Data.Int.Init
import Mathlib.Order.Basic

/-!
# Arithmetic of a machine, with a record of what did not fit

An expression is computed as a machine does, in integers of a width, and whether every step of it
fitted its type is remembered. Where all fitted, the value is the mathematical one; elsewhere it is
wrapped around, and a distance of a shift is taken modulo the width.

An operation that overflows goes on with the wrapped value and says so from then on. A claim that
something fits is then a claim about the flag at the end, and one about the value needs the flag.
-/

namespace CheckedArithmetic

/-- An integer type. -/
structure IntType where
  bits : Nat
  signed : Bool

namespace IntType

/-- The least value. -/
def low (type : IntType) : Int := if type.signed then -2 ^ (type.bits - 1) else 0

/-- The first value that is too large. -/
def stop (type : IntType) : Int := if type.signed then 2 ^ (type.bits - 1) else 2 ^ type.bits

/-- A number fits a type. -/
def Holds (type : IntType) (number : Int) : Prop := type.low ≤ number ∧ number < type.stop

instance (type : IntType) (number : Int) : Decidable (type.Holds number) :=
  inferInstanceAs (Decidable (_ ∧ _))

/-- What becomes of a number in a type. -/
def wrap (type : IntType) (number : Int) : Int :=
  if type.Holds number then number
  else if type.signed then Int.bmod number (2 ^ type.bits) else number % 2 ^ type.bits

/-- A number that the type holds is not wrapped. -/
theorem wrap_holds {type : IntType} {number : Int} (holds : type.Holds number) :
    type.wrap number = number := if_pos holds

end IntType

/-- A value, and whether all steps to it fitted. -/
structure Checked (α : Type) where
  value : α
  fits : Bool

instance : Monad Checked where
  pure a := ⟨a, true⟩
  bind x f := ⟨(f x.value).value, x.fits && (f x.value).fits⟩

/-- A computation yields a value, and everything fits on the way. -/
def Checked.Is {α : Type} (x : Checked α) (a : α) : Prop := x.value = a ∧ x.fits = true

/-- The result of an operation in a type. -/
def into (type : IntType) (number : Int) : Checked Int := ⟨type.wrap number, type.Holds number⟩

/-- A shift to the left. -/
def shl (type : IntType) (number distance : Int) : Checked Int :=
  ⟨type.wrap (number * 2 ^ (distance % type.bits).toNat),
    0 ≤ number ∧ 0 ≤ distance ∧ distance < type.bits ∧
      type.Holds (number * 2 ^ distance.toNat)⟩

/-- A shift to the right of a number that is not negative. -/
def shr (type : IntType) (number distance : Int) : Checked Int :=
  ⟨number / 2 ^ (distance % type.bits).toNat, 0 ≤ number ∧ 0 ≤ distance ∧ distance < type.bits⟩

section Rules

variable {α β : Type} {type : IntType} {number distance : Int}

theorem is_pure (a : α) : (pure a : Checked α).Is a := ⟨rfl, rfl⟩

/-- Both parts of a computation are exact, so the whole is. -/
theorem is_bind {x : Checked α} {f : α → Checked β} {a : α} {b : β} (first : x.Is a)
    (rest : (f a).Is b) : (x >>= f).Is b := by
  obtain ⟨rfl, fits⟩ := first
  obtain ⟨rfl, also⟩ := rest
  exact ⟨rfl, Bool.and_eq_true_iff.mpr ⟨fits, also⟩⟩

theorem is_into (holds : type.Holds number) : (into type number).Is number :=
  ⟨IntType.wrap_holds holds, decide_eq_true holds⟩

/-- A shift to the left is exact if the product fits. -/
theorem is_shl (positive : 0 ≤ number) (low : 0 ≤ distance) (high : distance < type.bits)
    (holds : type.Holds (number * 2 ^ distance.toNat)) :
    (shl type number distance).Is (number * 2 ^ distance.toNat) := by
  refine ⟨?_, decide_eq_true ⟨positive, low, high, holds⟩⟩
  rw [shl, Int.emod_eq_of_lt low high]
  exact IntType.wrap_holds holds

/-- A shift to the right of what is not negative is exact. -/
theorem is_shr (positive : 0 ≤ number) (low : 0 ≤ distance) (high : distance < type.bits) :
    (shr type number distance).Is (number / 2 ^ distance.toNat) := by
  refine ⟨?_, decide_eq_true ⟨positive, low, high⟩⟩
  rw [shr, Int.emod_eq_of_lt low high]

/-- What fits altogether fits at first. -/
theorem fits_first {x : Checked α} {f : α → Checked β} (fits : (x >>= f).fits = true) :
    x.fits = true := (Bool.and_eq_true_iff.mp fits).1

/-- After a known value it is the rest that has to fit. -/
theorem fits_rest {x : Checked α} {f : α → Checked β} {a : α} (first : x.Is a) :
    (x >>= f).fits = true ↔ (f a).fits = true := by
  obtain ⟨rfl, fits⟩ := first
  exact Bool.and_eq_true_iff.trans (and_iff_right fits)

theorem fits_into : (into type number).fits = true ↔ type.Holds number := decide_eq_true_iff

/-- A shift to the left overflows unless all of this holds. -/
theorem fits_shl : (shl type number distance).fits = true ↔
    0 ≤ number ∧ 0 ≤ distance ∧ distance < type.bits ∧
      type.Holds (number * 2 ^ distance.toNat) := decide_eq_true_iff

theorem fits_shr : (shr type number distance).fits = true ↔
    0 ≤ number ∧ 0 ≤ distance ∧ distance < type.bits := decide_eq_true_iff

end Rules

end CheckedArithmetic
