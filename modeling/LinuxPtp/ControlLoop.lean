import LinuxPtp.ServoSteps
import LinuxPtp.DampedRecurrences
import Mathlib.Data.Rat.Floor

/-!
# The control loop

A clock of which the frequency is off by a constant is sampled once in each interval, and what the
servo returns is taken from its frequency until the next sample. The limits that the code puts on
the two constants of the controller are such that the offset from the master then settles within a
bound that is in proportion to the errors of the measurements, and likewise the frequency.

The arithmetic is exact, and the power that scales the constants with the interval is any function
that has positive values: the code cuts what it makes of the constants, and the argument needs no
more than that they are positive and cut. The offset of every second interval follows from the two
before by a recurrence whose roots lie inside the unit circle, unless both constants come out at the
very limits; there the offset swings from one side to the other forever.
-/

namespace LinuxPtp.Servos

open FloatingPoint DampedRecurrences

/-! ## The constants -/

/-- The ranges of the options of the controller. -/
structure ServoConfig.InRange (cfg : ServoConfig ℚ) : Prop where
  proportionalConst : 0 ≤ cfg.piProportionalConst
  integralConst : 0 ≤ cfg.piIntegralConst
  proportionalScale : 0 ≤ cfg.piProportionalScale
  integralScale : 0 ≤ cfg.piIntegralScale
  proportionalNormMax : 0 < cfg.piProportionalNormMax ∧ cfg.piProportionalNormMax ≤ 1
  integralNormMax : 0 < cfg.piIntegralNormMax ∧ cfg.piIntegralNormMax ≤ 2

/-- What the configuration makes of a controller. -/
structure PiServo.Tuned (s : PiServo ℚ) : Prop where
  kpScale : 0 < s.configuredPiKpScale
  kiScale : 0 < s.configuredPiKiScale
  kpNormMax : 0 < s.configuredPiKpNormMax ∧ s.configuredPiKpNormMax ≤ 1
  kiNormMax : 0 < s.configuredPiKiNormMax ∧ s.configuredPiKiNormMax ≤ 2

/-- The constants suit an interval. -/
structure PiServo.Suits (interval : ℚ) (s : PiServo ℚ) : Prop where
  kp : 0 < interval * s.kp ∧ interval * s.kp ≤ 1
  ki : 0 < interval * s.ki ∧ interval * s.ki ≤ 2

theorem PiServo.Suits.damped {interval : ℚ} {s : PiServo ℚ} (suits : s.Suits interval)
    (still : ¬ (interval * s.kp = 1 ∧ interval * s.ki = 2)) :
    Damped (interval * s.kp + interval * s.ki - 2) (1 - interval * s.kp) := by
  obtain ⟨⟨kp, kpMost⟩, ⟨ki, kiMost⟩⟩ := suits
  have less : interval * s.kp < 1 ∨ interval * s.ki < 2 := by
    by_contra both
    obtain ⟨first, second⟩ := not_or.mp both
    exact still ⟨kpMost.antisymm (not_lt.mp first), kiMost.antisymm (not_lt.mp second)⟩
  constructor
  · linarith
  · linarith
  · linarith
  · rcases less with less | less <;> linarith

/-- A constant of the controller, cut to its limit for the interval. -/
theorem cut_suits {interval constant most : ℚ} (positive : 0 < interval) (given : 0 < constant)
    (room : 0 < most) :
    0 < interval * (if most / interval < constant then most / interval else constant) ∧
      interval * (if most / interval < constant then most / interval else constant) ≤ most := by
  have whole : interval * (most / interval) = most := by field_simp
  split
  next cut =>
    rw [whole]
    exact ⟨room, le_refl most⟩
  next uncut =>
    refine ⟨mul_pos positive given, ?_⟩
    calc interval * constant ≤ interval * (most / interval) :=
          mul_le_mul_of_nonneg_left (not_lt.mp uncut) positive.le
      _ = most := whole

/-- What is left of the offset after two more intervals, and what the measurements add. -/
theorem offset_next (interval frequency kp ki drift x first second : ℚ) :
    let y := x + interval * (frequency - ((kp + ki) * first + drift))
    let z := y + interval * (frequency - ((kp + ki) * second + (drift + ki * first)))
    z + (interval * kp + interval * ki - 2) * y + (1 - interval * kp) * x =
      interval * kp * (first - x) - (interval * kp + interval * ki) * (second - y) := by
  ring

section Loop

variable [Power]

/-- Both constants of a controller are at the very limits for an interval, where the offset could
swing from one side to the other forever. -/
def Swings (interval : ℚ) (servo : Servo ℚ) : Prop :=
  ∃ s, servo.core = .pi s ∧ interval * s.kp = 1 ∧ interval * s.ki = 2

section Constants

variable {cfg : ServoConfig ℚ} {interval : ℚ}

theorem bne_zero_iff (x : ℚ) : (x != (0.0 : ℚ)) = true ↔ x ≠ 0 := by
  rw [bne_iff_ne]
  norm_num

theorem tuned_piServoCreate (ranges : cfg.InRange) (fadj : Int) (swTs : Bool) :
    (piServoCreate cfg fadj swTs).Tuned := by
  have given {x : ℚ} (nonneg : 0 ≤ x) (nonzero : (x != (0.0 : ℚ)) = true) : 0 < x :=
    nonneg.lt_of_ne' ((bne_zero_iff x).mp nonzero)
  unfold piServoCreate
  dsimp only
  split
  next constants =>
    obtain ⟨kp, ki⟩ := Bool.and_eq_true_iff.mp constants
    exact ⟨given ranges.proportionalConst kp, given ranges.integralConst ki, by norm_num,
      by norm_num⟩
  next =>
    split
    · split
      · exact ⟨by norm_num, by norm_num, ranges.proportionalNormMax, ranges.integralNormMax⟩
      · exact ⟨by norm_num, by norm_num, ranges.proportionalNormMax, ranges.integralNormMax⟩
    next scales =>
      simp only [Bool.or_eq_true, Bool.not_eq_true', not_or, Bool.not_eq_false] at scales
      exact ⟨given ranges.proportionalScale scales.1, given ranges.integralScale scales.2,
        ranges.proportionalNormMax, ranges.integralNormMax⟩

theorem PiServo.Tuned.suits {s : PiServo ℚ} (tuned : s.Tuned) (positive : 0 < interval) :
    (piSyncInterval interval s).Suits interval := by
  have power (exponent : ℚ) : 0 < pow interval exponent := Power.positive interval exponent positive
  obtain ⟨kpPos, kpMost⟩ := cut_suits positive
    (mul_pos tuned.kpScale (power s.configuredPiKpExponent)) tuned.kpNormMax.1
  obtain ⟨kiPos, kiMost⟩ := cut_suits positive
    (mul_pos tuned.kiScale (power s.configuredPiKiExponent)) tuned.kiNormMax.1
  exact ⟨⟨kpPos, kpMost.trans tuned.kpNormMax.2⟩, ⟨kiPos, kiMost.trans tuned.kiNormMax.2⟩⟩

end Constants

/-! ## Samples -/

/-- What a servo is given once in each interval. -/
structure Reading where
  measured : Int64
  localTs : UInt64

/-- A clock with its servo. The offset is the time of the clock less that of its master, in
nanoseconds. -/
structure Controlled where
  servo : Servo ℚ
  offset : ℚ

/-- What the servo makes of a measured offset. -/
def Controlled.sample (k : Controlled) (reading : Reading) : ℚ × ServoState × Servo ℚ :=
  servoSample k.servo reading.measured reading.localTs 1

/-- An interval, at the end of which the offset has changed by what the frequency is off. -/
def controlStep (interval frequency : ℚ) (k : Controlled) (reading : Reading) : Controlled where
  servo := (k.sample reading).2.2
  offset := k.offset + interval * (frequency - (k.sample reading).1)

/-- The clock after a number of intervals. -/
def controlled (interval frequency : ℚ) (readings : ℕ → Reading) (start : Controlled) :
    ℕ → Controlled
  | 0 => start
  | n + 1 => controlStep interval frequency (controlled interval frequency readings start n)
      (readings n)

/-- The servo is locked throughout and never at the limit of the frequency, and the offsets are
measured up to an error. -/
structure Controls (interval frequency error : ℚ) (readings : ℕ → Reading) (start : Controlled) :
    Prop where
  measures : ∀ n, |((readings n).measured.toInt : ℚ) -
    (controlled interval frequency readings start n).offset| ≤ error
  locked : ∀ n, ((controlled interval frequency readings start n).sample (readings n)).2.1 = .locked
  within : ∀ n, |((controlled interval frequency readings start n).sample (readings n)).1| <
    (controlled interval frequency readings start n).servo.maxFrequency

variable {interval frequency error : ℚ} {readings : ℕ → Reading} {start : Controlled}

/-! ### The controller in a sample -/

/-- A sample leaves the constants. -/
theorem piSample_constants (servo : Servo ℚ) (offset : Int64) (localTs : UInt64) (weight : ℚ)
    (s : PiServo ℚ) : ∃ offset0 offset1 local0 local1 drift lastFreq count,
      (piSample servo offset localTs weight s).2.2 = { s with
        offset0 := offset0, offset1 := offset1, local0 := local0, local1 := local1
        drift := drift, lastFreq := lastFreq, count := count } := by
  unfold piSample piCases
  dsimp only
  split
  · exact ⟨_, _, _, _, _, _, _, rfl⟩
  · split
    · exact ⟨_, _, _, _, _, _, _, rfl⟩
    split
    · exact ⟨_, _, _, _, _, _, _, rfl⟩
    · exact ⟨_, _, _, _, _, _, _, rfl⟩
  · split
    · exact ⟨_, _, _, _, _, _, _, rfl⟩
    split
    · exact ⟨_, _, _, _, _, _, _, rfl⟩
    split
    · exact ⟨_, _, _, _, _, _, _, rfl⟩
    · exact ⟨_, _, _, _, _, _, _, rfl⟩

/-- A controller that is locked has estimated the frequency. -/
theorem piSample_locked {servo : Servo ℚ} {offset : Int64} {localTs : UInt64} {weight : ℚ}
    {s : PiServo ℚ} (locked : (piSample servo offset localTs weight s).2.1 = .locked) :
    (piSample servo offset localTs weight s).2.2.count = 2 := by
  change (piCases servo offset localTs weight s).2.1 = .locked at locked
  change (piCases servo offset localTs weight s).2.2.count = 2
  revert locked
  fun_cases piCases servo offset localTs weight s with
  | case1 | case2 | case3 | case5 =>
    intro unlocked
    cases unlocked
  | case4 => exact fun _ => rfl
  | case6 estimated | case7 estimated | case8 estimated => exact fun _ => estimated

/-- Below the limit of the frequency the controller adds up the offsets. -/
theorem piSample_adds {servo : Servo ℚ} {offset : Int64} {localTs : UInt64} {s : PiServo ℚ}
    (estimated : s.count = 2) (locked : (piSample servo offset localTs 1 s).2.1 = .locked)
    (within : |(piSample servo offset localTs 1 s).1| < servo.maxFrequency) :
    (piSample servo offset localTs 1 s).1 = (s.kp + s.ki) * offset.toInt + s.drift ∧
      (piSample servo offset localTs 1 s).2.2.drift = s.drift + s.ki * offset.toInt := by
  change (piCases servo offset localTs 1 s).2.1 = .locked at locked
  change |(piCases servo offset localTs 1 s).1| < servo.maxFrequency at within
  change (piCases servo offset localTs 1 s).1 = (s.kp + s.ki) * offset.toInt + s.drift ∧
    (piCases servo offset localTs 1 s).2.2.drift = s.drift + s.ki * offset.toInt
  revert locked within
  unfold piCases
  rw [estimated]
  dsimp only
  split
  · intro unlocked
    cases unlocked
  split
  · intro _ within
    rw [abs_neg] at within
    exact absurd (le_abs_self _) (not_le.mpr within)
  split
  · intro _ within
    exact absurd (le_abs_self _) (not_le.mpr within)
  · intro _ _
    unfold ofInt64
    constructor <;> ring

/-! ### The clock in an interval -/

/-- A controller with the supplied constants that has estimated the frequency. -/
def Controlled.Runs (kp ki drift : ℚ) (k : Controlled) : Prop :=
  ∃ s, k.servo.core = .pi s ∧ s.kp = kp ∧ s.ki = ki ∧ s.count.val = 2 ∧ s.drift = drift

theorem sample_pi {k : Controlled} {s : PiServo ℚ} (core : k.servo.core = .pi s)
    (reading : Reading) :
    (k.sample reading).1 = (piSample k.servo reading.measured reading.localTs 1 s).1 ∧
      (k.sample reading).2.1 = (piSample k.servo reading.measured reading.localTs 1 s).2.1 ∧
      (k.sample reading).2.2.core =
        .pi (piSample k.servo reading.measured reading.localTs 1 s).2.2 := by
  unfold Controlled.sample servoSample coreSample
  rw [core]
  exact ⟨rfl, rfl, rfl⟩

/-- A locked sample leaves a controller that has estimated the frequency. -/
theorem runs_first {k : Controlled} {s : PiServo ℚ} {reading : Reading}
    (core : k.servo.core = .pi s) (locked : (k.sample reading).2.1 = .locked) :
    ∃ drift, (controlStep interval frequency k reading).Runs s.kp s.ki drift := by
  obtain ⟨_, state, next⟩ := sample_pi core reading
  have estimated := piSample_locked (state.symm.trans locked)
  obtain ⟨_, _, _, _, _, _, _, same⟩ :=
    piSample_constants k.servo reading.measured reading.localTs 1 s
  refine ⟨_, _, next, ?_, ?_, congrArg Fin.val estimated, rfl⟩
  · rw [same]
  · rw [same]

/-- What a sample of such a controller returns, and what it leaves. -/
theorem Controlled.Runs.step {k : Controlled} {kp ki drift : ℚ} {reading : Reading}
    (runs : k.Runs kp ki drift) (locked : (k.sample reading).2.1 = .locked)
    (within : |(k.sample reading).1| < k.servo.maxFrequency) :
    (k.sample reading).1 = (kp + ki) * reading.measured.toInt + drift ∧
      (controlStep interval frequency k reading).Runs kp ki
        (drift + ki * reading.measured.toInt) := by
  obtain ⟨s, core, rfl, rfl, estimated, rfl⟩ := runs
  obtain ⟨ppb, state, next⟩ := sample_pi core reading
  rw [ppb] at within ⊢
  obtain ⟨returned, left⟩ := piSample_adds (Fin.ext estimated) (state.symm.trans locked) within
  obtain ⟨_, _, _, _, _, _, _, same⟩ :=
    piSample_constants k.servo reading.measured reading.localTs 1 s
  have still := piSample_locked (state.symm.trans locked)
  refine ⟨returned, _, next, ?_, ?_, congrArg Fin.val still, left⟩
  · rw [same]
  · rw [same]

/-! ## Runs -/

/-- The offsets follow a recurrence, up to the errors of the measurements. -/
theorem Controls.follows (controls : Controls interval frequency error readings start)
    {s : PiServo ℚ} (core : start.servo.core = .pi s) (suits : s.Suits interval) :
    Recurs (interval * s.kp + interval * s.ki - 2) (1 - interval * s.kp)
      ((2 * (interval * s.kp) + interval * s.ki) * error)
      fun n => (controlled interval frequency readings start (n + 1)).offset := by
  have runs (n : ℕ) : ∃ drift,
      (controlled interval frequency readings start (n + 1)).Runs s.kp s.ki drift := by
    induction n with
    | zero => exact runs_first core (controls.locked 0)
    | succ n inductionHypothesis =>
      obtain ⟨drift, before⟩ := inductionHypothesis
      exact ⟨_, (before.step (controls.locked _) (controls.within _)).2⟩
  intro n
  obtain ⟨drift, before⟩ := runs n
  obtain ⟨first, between⟩ : _ ∧
      (controlled interval frequency readings start (n + 2)).Runs s.kp s.ki _ :=
    before.step (controls.locked _) (controls.within _)
  obtain ⟨second, _⟩ : _ ∧
      (controlled interval frequency readings start (n + 3)).Runs s.kp s.ki _ :=
    between.step (controls.locked _) (controls.within _)
  have sooner := controls.measures (n + 1)
  have later := controls.measures (n + 2)
  have next : (controlled interval frequency readings start (n + 2)).offset =
      (controlled interval frequency readings start (n + 1)).offset + interval *
        (frequency - ((s.kp + s.ki) * (readings (n + 1)).measured.toInt + drift)) := by
    rw [← first]
    rfl
  have last : (controlled interval frequency readings start (n + 3)).offset =
      (controlled interval frequency readings start (n + 2)).offset + interval *
        (frequency - ((s.kp + s.ki) * (readings (n + 2)).measured.toInt +
          (drift + s.ki * (readings (n + 1)).measured.toInt))) := by
    rw [← second]
    rfl
  dsimp only
  rw [last]
  rw [next] at later ⊢
  rw [offset_next]
  have kp := suits.kp.1.le
  have both : 0 ≤ interval * s.kp + interval * s.ki := add_nonneg kp suits.ki.1.le
  refine (abs_sub _ _).trans ?_
  rw [abs_mul (interval * s.kp), abs_mul (interval * s.kp + interval * s.ki), abs_of_nonneg kp,
    abs_of_nonneg both]
  have one := mul_le_mul_of_nonneg_left sooner kp
  have two := mul_le_mul_of_nonneg_left later both
  linarith

/-- Nothing that happens to a servo changes its configuration. -/
theorem tuned_step (servo : Servo ℚ) (event : ServoEvent ℚ)
    (before : ∃ s, servo.core = .pi s ∧ s.Tuned) :
    ∃ s, (servoStep servo event).core = .pi s ∧ s.Tuned := by
  obtain ⟨s, core, tuned⟩ := before
  have kept : PiServo.Tuned s → ∀ kp ki offset0 offset1 local0 local1 drift lastFreq count,
      PiServo.Tuned { s with
        kp := kp, ki := ki, offset0 := offset0, offset1 := offset1, local0 := local0
        local1 := local1, drift := drift, lastFreq := lastFreq, count := count } :=
    fun tuned _ _ _ _ _ _ _ _ _ =>
      ⟨tuned.kpScale, tuned.kiScale, tuned.kpNormMax, tuned.kiNormMax⟩
  cases event with
  | sample offset localTs weight =>
    obtain ⟨_, _, _, _, _, _, _, same⟩ := piSample_constants servo offset localTs weight s
    refine ⟨(piSample servo offset localTs weight s).2.2, ?_, same ▸ kept tuned ..⟩
    unfold servoStep servoSample coreSample
    rw [core]
  | syncInterval other =>
    refine ⟨piSyncInterval other s, ?_, kept tuned ..⟩
    unfold servoStep servoSyncInterval
    rw [core]
  | reset =>
    refine ⟨piReset s, ?_, kept tuned ..⟩
    unfold servoStep servoReset
    rw [core]
  | leap leap =>
    refine ⟨s, ?_, tuned⟩
    unfold servoStep servoLeap
    rw [core]
    exact core

/-- What is left of the frequency is what the offset changes by. -/
theorem frequency_left (positive : 0 < interval) (n : ℕ) : frequency -
    ((controlled interval frequency readings start n).sample (readings n)).1 =
      ((controlled interval frequency readings start (n + 1)).offset -
        (controlled interval frequency readings start n).offset) / interval := by
  rw [eq_div_iff positive.ne']
  change _ = _ + interval * (frequency - _) - _
  ring

end Loop

/-- Two samples a second apart after which the controller is locked. -/
def lockedSamples : List (ServoEvent ℚ) :=
  [.syncInterval 1, .sample 0 0 1, .sample 0 1000000000 1]

/-- A clock that is 100 ppb fast, with a servo that has found that out. -/
def fastClock (servo : Servo ℚ) : Controlled :=
  ⟨servoSyncInterval 1 (lockedSamples.foldl servoStep servo), 2 / 5⟩

/-- Less than a nanosecond away from its master the clock stays where it is. -/
theorem fastClock_still {servo : Servo ℚ}
    (created : servoCreate (fun _ => none) plainConfig .pi 100 500000 false = some servo) :
    Controls 1 100 (1 / 2) (fun _ => ⟨0, 0⟩) (fastClock servo) := by
  have still : controlStep 1 100 (fastClock servo) ⟨0, 0⟩ = fastClock servo ∧
      ((fastClock servo).sample ⟨0, 0⟩).2.1 = .locked ∧
      |((fastClock servo).sample ⟨0, 0⟩).1| < (fastClock servo).servo.maxFrequency := by
    cases created
    refine ⟨?_, by decide +kernel, by decide +kernel⟩
    with_unfolding_all rfl
  have same (n : ℕ) :
      controlled 1 100 (fun _ => ⟨0, 0⟩) (fastClock servo) n = fastClock servo := by
    induction n with
    | zero => rfl
    | succ n inductionHypothesis =>
      rw [controlled, inductionHypothesis]
      exact still.1
  constructor
  · intro n
    rw [same]
    change |((0 : Int) : ℚ) - 2 / 5| ≤ 1 / 2
    norm_num [abs_le]
  · intro n
    rw [same]
    exact still.2.1
  · intro n
    rw [same]
    exact still.2.2

end LinuxPtp.Servos
