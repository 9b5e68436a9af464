import LinuxPtp.BestMaster
import Mathlib.Algebra.Order.Field.Basic
import Mathlib.Algebra.Order.Field.Power
import Mathlib.Data.Rat.Cast.Order
import Mathlib.Tactic.Linarith
import Mathlib.Tactic.NormNum
import Mathlib.Tactic.IntervalCases

/-!
# The window of an announce

An announce counts for four of its own announce intervals. `msg_current` computes them with shifts
of 32 bits, which is right for exponents from -11 to 30 and for the others at some ages only, and
`fc_prune` stops at the first announce from the old end that counts. `Window` says when the first is
right and `Judged` when the second leaves exactly the announces that count.

The reference is a window in the order of time, with exponents of any size. It is compared with
the code for every age and every exponent of eight bits, and the shifts that do not fit are taken
as the processor takes them.
-/

namespace LinuxPtp

open RefPool

/-! ## Four announce intervals -/

/-- An announce is younger than four of its announce intervals, taken exactly. -/
def Young (now : Int) (m : PtpMessage) : Prop :=
  ((now - m.host : Int) : ℚ) < 4 * 10 ^ 9 * (2 : ℚ) ^ m.logMessageInterval

/-- The ages at which `msg_current` is right, by the exponent. -/
def Window (log age : Int) : Prop :=
  if log < -62 then age ≠ 0
  else if log < -31 then age = 0 ∨ 4 * 10 ^ 9 / 2 ^ (-log - 32).toNat ≤ age
  else if log = -31 then 2 ≤ age
  else if log < -11 then age ≠ 4 * 10 ^ 9 / 2 ^ (-log).toNat
  else if log ≤ 30 then True
  else if log = 31 then 4 * 10 ^ 9 * 2 ^ 31 ≤ age
  else age < 2 ^ 63 - 1 ∨ 4 * 10 ^ 9 * 2 ^ log.toNat ≤ age

section Arithmetic

variable {now : Int} {m : PtpMessage}

/-- Of an interval of whole seconds the window is a multiple. -/
theorem young_nonneg {exponent : Nat} (log : m.logMessageInterval = exponent) :
    Young now m ↔ now - m.host < 4 * 10 ^ 9 * 2 ^ exponent := by
  rw [Young, log, zpow_natCast]
  exact_mod_cast Iff.rfl

/-- Of a fraction of a second the window is a part; both sides are multiplied, so that nothing is
rounded. -/
theorem young_neg {exponent : Nat} (log : m.logMessageInterval = -exponent) :
    Young now m ↔ (now - m.host) * 2 ^ exponent < 4 * 10 ^ 9 := by
  have positive : (0 : ℚ) < 2 ^ exponent := by positivity
  rw [Young, log, zpow_neg, zpow_natCast, ← div_eq_mul_inv, lt_div_iff₀ positive]
  exact_mod_cast Iff.rfl

/-- A product stays below a bound if the factor does not exceed the quotient, or is below it where
the division leaves no rest. -/
theorem mul_lt_iff {age bound divisor : Int} (positive : 0 < divisor) :
    age * divisor < bound ↔
      age < bound / divisor ∨ age = bound / divisor ∧ ¬ divisor ∣ bound := by
  have split := Int.mul_ediv_add_emod bound divisor
  have low := Int.emod_nonneg bound positive.ne'
  have high := Int.emod_lt_of_pos bound positive
  have rest : divisor ∣ bound ↔ bound % divisor = 0 := Int.dvd_iff_emod_eq_zero
  constructor
  · intro below
    have least : age ≤ bound / divisor := (Int.le_ediv_iff_mul_le positive).mpr below.le
    rcases least.lt_or_eq with less | equal
    · exact Or.inl less
    · refine Or.inr ⟨equal, fun divides => ?_⟩
      rw [rest.mp divides] at split
      rw [equal] at below
      linarith
  · rintro (less | ⟨equal, undivided⟩)
    · have product : (age + 1) * divisor ≤ bound / divisor * divisor :=
        Int.mul_le_mul_of_nonneg_right less positive.le
      linarith
    · rw [rest] at undivided
      rw [equal]
      have strict : 0 < bound % divisor := by omega
      linarith

/-- Four seconds are divided by 2 to the 11 and no further. -/
theorem pow_dvd_iff {exponent : Nat} : (2 : Int) ^ exponent ∣ 4 * 10 ^ 9 ↔ exponent ≤ 11 := by
  constructor
  · intro divides
    by_contra large
    have twelve : (2 : Int) ^ 12 ∣ 4 * 10 ^ 9 := (pow_dvd_pow 2 (by omega)).trans divides
    revert twelve
    decide
  · intro small
    exact (pow_dvd_pow 2 small).trans (by decide)

/-- A shift of one by less than 31 is a power of two. -/
theorem shiftOne_small {distance : Nat} (small : distance < 31) :
    shiftOne distance = 2 ^ distance := by
  rw [shiftOne, Nat.mod_eq_of_lt (by omega), if_neg (by omega)]

/-- A shift by 32 or more wraps around as the machine counts the distance modulo 32. -/
theorem shiftOne_wrapped {distance : Nat} (low : 32 ≤ distance) (high : distance < 63) :
    shiftOne distance = 2 ^ (distance - 32) := by
  have wrapped : distance % 32 = distance - 32 := by omega
  rw [shiftOne, wrapped, if_neg (by omega)]

/-- What `msg_current` does with an exponent below 0. -/
theorem msgCurrent_neg {exponent : Nat} (log : m.logMessageInterval = -exponent)
    (positive : 0 < exponent) (small : exponent ≤ 63) :
    msgCurrent m now = true ↔
      now - m.host < (4 * 1000000000 : Int).tdiv (shiftOne exponent) := by
  have distance : (-m.logMessageInterval).toNat = exponent := by omega
  rw [msgCurrent, announceTimeout, if_neg (by omega), if_neg (by omega), if_pos (by omega),
    distance, decide_eq_true_iff]

/-- The code judges an interval of whole seconds as the standard says. -/
theorem msgCurrent_nonneg {exponent : Nat} (log : m.logMessageInterval = exponent)
    (small : exponent ≤ 31) :
    msgCurrent m now = true ↔ now - m.host < 4 * shiftOne exponent * 1000000000 := by
  have distance : m.logMessageInterval.toNat = exponent := by omega
  rw [msgCurrent, announceTimeout, if_neg (by omega), if_neg (by omega), if_neg (by omega),
    distance, decide_eq_true_iff]

/-- Less than a nanosecond: only an announce of the same moment is younger. -/
theorem young_tiny {exponent : Nat} (log : m.logMessageInterval = -exponent)
    (tiny : 32 ≤ exponent) (past : m.host ≤ now) : Young now m ↔ now - m.host = 0 := by
  have large : (2 : Int) ^ 32 ≤ 2 ^ exponent := pow_le_pow_right₀ (by decide) tiny
  rw [young_neg log]
  constructor
  · intro below
    by_contra other
    have least : 1 * 2 ^ exponent ≤ (now - m.host) * 2 ^ exponent :=
      Int.mul_le_mul_of_nonneg_right (by omega) (by positivity)
    linarith
  · intro same
    rw [same, Int.zero_mul]
    decide

/-- `msg_current` is right about an announce. -/
def Measured (now : Int) (m : PtpMessage) : Prop := msgCurrent m now = true ↔ Young now m

/-- For a fraction of a second it rounds, which matters only at the very end of the window. -/
theorem measured_fraction {exponent : Nat} (log : m.logMessageInterval = -exponent)
    (positive : 0 < exponent) (small : exponent < 31) :
    Measured now m ↔ exponent ≤ 11 ∨ now - m.host ≠ 4 * 10 ^ 9 / 2 ^ exponent := by
  have divisor : (0 : Int) < 2 ^ exponent := by positivity
  have quotient : (4 * 1000000000 : Int).tdiv (2 ^ exponent) = 4 * 10 ^ 9 / 2 ^ exponent :=
    Int.tdiv_eq_ediv_of_nonneg (by decide)
  rw [Measured, msgCurrent_neg log positive (by omega), shiftOne_small small, quotient,
    young_neg log, mul_lt_iff divisor, pow_dvd_iff]
  generalize (4 * 10 ^ 9 : Int) / 2 ^ exponent = bound
  omega

/-- For a distance that wraps around it judges by another window, shorter or longer. -/
theorem measured_wrapped {exponent : Nat} (log : m.logMessageInterval = -exponent)
    (low : 32 ≤ exponent) (high : exponent < 63) (past : m.host ≤ now) :
    Measured now m ↔ now - m.host = 0 ∨ 4 * 10 ^ 9 / 2 ^ (exponent - 32) ≤ now - m.host := by
  have quotient : (4 * 1000000000 : Int).tdiv (2 ^ (exponent - 32)) =
      4 * 10 ^ 9 / 2 ^ (exponent - 32) := Int.tdiv_eq_ediv_of_nonneg (by decide)
  have least : (1 : Int) ≤ 4 * 10 ^ 9 / 2 ^ (exponent - 32) := by
    have large : (2 : Int) ^ (exponent - 32) ≤ 2 ^ 30 := pow_le_pow_right₀ (by decide) (by omega)
    refine (Int.le_ediv_iff_mul_le (by positivity)).mpr ?_
    linarith
  rw [Measured, msgCurrent_neg log (by omega) (by omega), shiftOne_wrapped low high, quotient,
    young_tiny log low past]
  generalize (4 * 10 ^ 9 : Int) / 2 ^ (exponent - 32) = bound at *
  omega

/-- Where the shift comes to the sign bit, nothing counts. -/
theorem not_current_neg {exponent : Nat} (log : m.logMessageInterval = -exponent)
    (wrapped : exponent = 31 ∨ exponent = 63) (past : m.host ≤ now) : ¬ msgCurrent m now := by
  have sign : shiftOne exponent = -2 ^ 31 := by
    rcases wrapped with rfl | rfl <;> decide
  have quotient : (4 * 1000000000 : Int).tdiv (-2 ^ 31) = -1 := by decide
  rw [msgCurrent_neg log (by omega) (by omega), sign, quotient]
  omega

theorem measured_denied (denied : ¬ msgCurrent m now) : Measured now m ↔ ¬ Young now m := by
  rw [Measured, iff_false_left denied]

/-- `msg_current` is right at the ages in the window, and at no other. -/
theorem measured_iff (past : m.host ≤ now) :
    Measured now m ↔ Window m.logMessageInterval (now - m.host) := by
  have age : 0 ≤ now - m.host := by omega
  unfold Window
  rcases Int.lt_or_le m.logMessageInterval 0 with negative | nonnegative
  · obtain ⟨exponent, same⟩ := Int.eq_ofNat_of_zero_le (show 0 ≤ -m.logMessageInterval by omega)
    have log : m.logMessageInterval = -exponent := by omega
    have distance : (-m.logMessageInterval).toNat = exponent := by omega
    have wrapped : (-m.logMessageInterval - 32).toNat = exponent - 32 := by omega
    rw [distance, wrapped]
    by_cases tiny : m.logMessageInterval < -62
    · rw [if_pos tiny, measured_denied, young_tiny log (by omega) past]
      by_cases sign : exponent = 63
      · exact not_current_neg log (Or.inr sign) past
      · rw [msgCurrent, announceTimeout, if_pos (by omega), decide_eq_true_iff]
        omega
    rw [if_neg tiny]
    by_cases low : m.logMessageInterval < -31
    · rw [if_pos low]
      exact measured_wrapped log (by omega) (by omega) past
    rw [if_neg low]
    by_cases sign : m.logMessageInterval = -31
    · obtain rfl : exponent = 31 := by omega
      rw [if_pos sign, measured_denied (not_current_neg log (Or.inl rfl) past), young_neg log]
      omega
    rw [if_neg sign, measured_fraction log (by omega) (by omega)]
    by_cases fine : m.logMessageInterval < -11
    · rw [if_pos fine]
      exact or_iff_right (by omega)
    · rw [if_neg fine, if_pos (by omega)]
      exact iff_true_intro (Or.inl (by omega))
  · obtain ⟨exponent, log⟩ := Int.eq_ofNat_of_zero_le nonnegative
    have distance : m.logMessageInterval.toNat = exponent := by omega
    rw [distance, if_neg (by omega), if_neg (by omega), if_neg (by omega), if_neg (by omega)]
    by_cases small : m.logMessageInterval ≤ 30
    · rw [if_pos small]
      refine iff_true_intro ?_
      rw [Measured, msgCurrent_nonneg log (by omega), shiftOne_small (by omega), young_nonneg log]
      have same : (4 : Int) * 2 ^ exponent * 1000000000 = 4 * 10 ^ 9 * 2 ^ exponent := by ring
      rw [same]
    rw [if_neg small]
    by_cases sign : m.logMessageInterval = 31
    · obtain rfl : exponent = 31 := by omega
      have denied : ¬ msgCurrent m now := by
        have negative : shiftOne 31 = -2 ^ 31 := rfl
        rw [msgCurrent_nonneg log (by omega), negative]
        omega
      rw [if_pos sign, measured_denied denied, young_nonneg log]
      omega
    · have large : (2 : Int) ^ 32 ≤ 2 ^ exponent := pow_le_pow_right₀ (by decide) (by omega)
      have current : msgCurrent m now = true ↔ now - m.host < 2 ^ 63 - 1 := by
        rw [msgCurrent, announceTimeout, if_neg (by omega), if_pos (by omega), decide_eq_true_iff]
      rw [if_neg sign, Measured, current, young_nonneg log]
      omega

end Arithmetic

/-! ## One pruning -/

/-- What pruning should do: all that is left is young, and nothing young is dropped but for the
bound. -/
structure PrunedRight (now : Int) (before after : List Stored) : Prop where
  left : ∀ m ∈ after, Young now m.msg
  dropped : ∀ m ∈ before.take foreignMasterThreshold, Young now m.msg → m ∈ after

/-- The window of an announce at a time. -/
def InWindow (now : Int) (m : Stored) : Prop := Window m.msg.logMessageInterval (now - m.msg.host)

/-- The older of the two newest announces is judged rightly; if it is young, so is the newer one,
and if not, the newer one is judged rightly as well. -/
def Judged (now : Int) : List Stored → Prop
  | [] => True
  | [m] => InWindow now m
  | newest :: older :: _ => InWindow now older ∧
    (Young now older.msg → Young now newest.msg) ∧ (¬ Young now older.msg → InWindow now newest)

section Pruning

variable {now : Int} {fc : ForeignClock} {m newest older : Stored}

theorem fresh_one (one : fc.messages = [m]) :
    fc.fresh now = if msgCurrent m.msg now then [m] else [] := by
  rw [ForeignClock.fresh, one]
  cases current : msgCurrent m.msg now <;>
    simp [foreignMasterThreshold, List.rdropWhile, List.dropWhile, current]

/-- Of two messages or more the second one is asked first: if it is current, the newest one is not
asked. -/
theorem fresh_two {rest : List Stored} (two : fc.messages = newest :: older :: rest) :
    fc.fresh now = if msgCurrent older.msg now then [newest, older]
      else if msgCurrent newest.msg now then [newest] else [] := by
  rw [ForeignClock.fresh, two]
  cases last : msgCurrent older.msg now <;> cases first : msgCurrent newest.msg now <;>
    simp [foreignMasterThreshold, List.rdropWhile, List.dropWhile, last, first]

theorem prunedRight_one (one : fc.messages = [m]) :
    PrunedRight now fc.messages (fc.fresh now) ↔ Measured now m.msg := by
  rw [fresh_one one, one, Measured]
  constructor
  · rintro ⟨left, dropped⟩
    constructor
    · intro current
      exact left m (by rw [if_pos current]; exact List.mem_singleton_self m)
    · intro young
      have kept := dropped m List.mem_cons_self young
      by_contra denied
      rw [if_neg denied] at kept
      cases kept
  · intro right
    by_cases current : msgCurrent m.msg now
    · rw [if_pos current]
      refine ⟨fun other member => ?_, fun other member _ => member⟩
      obtain rfl := List.mem_singleton.mp member
      exact right.mp current
    · rw [if_neg current]
      refine ⟨fun other member => absurd member List.not_mem_nil, fun other member young => ?_⟩
      obtain rfl := List.mem_singleton.mp member
      exact absurd (right.mpr young) current

/-- Two messages are judged right exactly if each of them that is asked is. -/
theorem prunedRight_two {rest : List Stored} (two : fc.messages = newest :: older :: rest) :
    PrunedRight now fc.messages (fc.fresh now) ↔ Measured now older.msg ∧
      (Young now older.msg → Young now newest.msg) ∧
      (¬ Young now older.msg → Measured now newest.msg) := by
  have bound : fc.messages.take foreignMasterThreshold = [newest, older] := by
    rw [two]
    rfl
  rw [fresh_two two]
  by_cases last : msgCurrent older.msg now
  · rw [if_pos last]
    constructor
    · rintro ⟨left, _⟩
      have young := left older (by simp)
      exact ⟨iff_of_true last young, fun _ => left newest List.mem_cons_self, fun old => absurd young old⟩
    · rintro ⟨right, newer, _⟩
      have young := right.mp last
      refine ⟨?_, fun other member _ => bound ▸ member⟩
      simpa using ⟨newer young, young⟩
  rw [if_neg last]
  have different (first : msgCurrent newest.msg now) : older ≠ newest := by
    rintro rfl
    exact last first
  constructor
  · rintro ⟨left, dropped⟩
    rw [bound] at dropped
    have old : ¬ Young now older.msg := by
      intro young
      have kept := dropped older (by simp) young
      split at kept
      next first => exact different first (List.mem_singleton.mp kept)
      next => cases kept
    refine ⟨iff_of_false last old, fun young => absurd young old, fun _ => ?_⟩
    constructor
    · intro first
      exact left newest (by rw [if_pos first]; exact List.mem_singleton_self newest)
    · intro young
      have kept := dropped newest List.mem_cons_self young
      by_contra denied
      rw [if_neg denied] at kept
      cases kept
  · rintro ⟨right, _, newer⟩
    have old : ¬ Young now older.msg := fun young => last (right.mpr young)
    have first := newer old
    constructor
    · intro other member
      split at member
      next current =>
        obtain rfl := List.mem_singleton.mp member
        exact first.mp current
      next => cases member
    · intro other member young
      rw [bound] at member
      rcases List.mem_pair.mp member with rfl | rfl
      · rw [if_pos (first.mpr young)]
        exact List.mem_singleton_self _
      · exact absurd young old

/-- Pruning does what it should exactly when the announces are judged rightly. -/
theorem pruned_right (past : ∀ m ∈ fc.messages, m.msg.host ≤ now) (s : ClockState) :
    PrunedRight now fc.messages (fcPrune now fc s).1.messages ↔ Judged now fc.messages := by
  have record : (fcPrune now fc s).1.messages = fc.fresh now := by
    rw [fcPrune_record]
    rfl
  rw [record]
  rcases shape : fc.messages with _ | ⟨newest, _ | ⟨older, rest⟩⟩
  · have empty : fc.fresh now = [] := by
      rw [ForeignClock.fresh, shape]
      rfl
    rw [empty]
    exact iff_of_true ⟨by simp, by simp⟩ trivial
  · rw [← shape, prunedRight_one shape, shape]
    exact measured_iff (past newest (by simp [shape]))
  · have first := measured_iff (past newest (by simp [shape]))
    have last := measured_iff (past older (by simp [shape]))
    rw [← shape, prunedRight_two shape, shape, first, last]
    rfl

end Pruning

end LinuxPtp
