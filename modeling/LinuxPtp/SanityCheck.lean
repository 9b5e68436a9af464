import LinuxPtp.FloatingPoint
import LinuxPtp.Runs
import Mathlib.Tactic.FieldSimp
import Mathlib.Tactic.Linarith
import Mathlib.Tactic.Ring

/-!
# The sanity check of a clock

The clock that is synchronised is compared with the monotonic clock of the system (`clockcheck.c`).
What is known of it is the frequency correction that was set, so that an advance that no correction
since the last comparison explains, within the sanity limit, is a jump or a wrong speed.

Runs consist of time that passes on both clocks, corrections of the frequency within the range of
the check, steps of the clock that the check is told of, and time stamps. Between two comparisons
the bounds on the advance are sums over such pieces, each with the frequency that was set then.
-/

namespace LinuxPtp.SanityCheck

open FloatingPoint Runs

universe u

/-- `CHECK_MIN_INTERVAL`. -/
def checkMinInterval : Int := 100000000

/-- `CHECK_MAX_FREQ`. -/
def checkMaxFreq : Int := 900000000

/-- `struct clockcheck`. -/
structure ClockCheck where
  freqLimit : Int
  freqKnown : Bool := false
  currentFreq : Int := 0
  maxFreq : Int := -checkMaxFreq
  minFreq : Int := checkMaxFreq
  lastTs : UInt64 := 0
  lastMonoTs : UInt64 := 0

/-- `clockcheck_create`. -/
def clockcheckCreate (freqLimit : Int) : ClockCheck := { freqLimit := freqLimit }

/-- `clockcheck_set_freq`. -/
def clockcheckSetFreq (freq : Int) (cc : ClockCheck) : ClockCheck :=
  { cc with
    maxFreq := if cc.maxFreq < freq then freq else cc.maxFreq
    minFreq := if cc.minFreq > freq then freq else cc.minFreq
    currentFreq := freq
    freqKnown := true }

/-- `clockcheck_step`. -/
def clockcheckStep (step : Int64) (cc : ClockCheck) : ClockCheck :=
  if cc.lastTs ≠ 0 then { cc with lastTs := cc.lastTs + step.toUInt64 } else cc

section Sampling

variable (F : Type u) [Double F]

/-- The frequency offset that an advance shows in an interval of the monotonic clock, without a
correction. -/
def foffset (interval monoInterval correction : Int) : F :=
  1e9 * ((interval : F) / (1.0 + (correction : F) / 1e9) / (monoInterval : F) - 1.0)

/-- The comparison in `clockcheck_sample`: whether the clock jumped, or does not run as expected. -/
def warns (interval monoInterval : Int) (cc : ClockCheck) : Bool :=
  cc.lastTs ≠ 0 && cc.maxFreq ≤ checkMaxFreq &&
    (decide ((cc.freqLimit : F) < foffset F interval monoInterval cc.maxFreq) ||
      decide (foffset F interval monoInterval cc.minFreq < -(cc.freqLimit : F)))

/-- `clockcheck_sample` at a time of the monotonic clock. -/
def clockcheckSample (ts monoTs : UInt64) (cc : ClockCheck) : Bool × ClockCheck :=
  if !cc.freqKnown then (false, cc) else
    let interval := (ts - cc.lastTs).toInt64.toInt
    if 0 ≤ interval ∧ interval < checkMinInterval then (false, cc) else
      let monoInterval := (monoTs - cc.lastMonoTs).toInt64.toInt
      if monoInterval < checkMinInterval then (false, cc) else
        (warns F interval monoInterval cc, { cc with
          lastMonoTs := monoTs, lastTs := ts
          maxFreq := cc.currentFreq, minFreq := cc.currentFreq })

end Sampling

/-! ## A clock that is watched -/

/-- A clock, the monotonic clock and the check. -/
structure Watched where
  cc : ClockCheck
  ts : Int
  mono : Int

/-- A time in nanoseconds as it is stored. -/
def stamp (time : Int) : UInt64 := (Int64.ofInt time).toUInt64

/-- What happens to the clock. -/
inductive ClockEvent where
  /-- Time passes, on both clocks. -/
  | passes (clock mono : Int)
  /-- The frequency of the clock is corrected (`clockadj_set_freq`). -/
  | setFreq (freq : Int)
  /-- The clock is stepped (`clockadj_step`). -/
  | step (amount : Int64)
  /-- A time stamp is checked (`clock_check_ts`). -/
  | sample
  /-- The clock is set by something else. -/
  | jumps (amount : Int)
deriving DecidableEq

/-- One event. -/
def watchedStep (w : Watched) : ClockEvent → Watched
  | .passes clock mono => { w with ts := w.ts + clock, mono := w.mono + mono }
  | .setFreq freq => { w with cc := clockcheckSetFreq freq w.cc }
  | .step amount => { w with ts := w.ts + amount.toInt, cc := clockcheckStep amount w.cc }
  | .sample => { w with cc := (clockcheckSample ℚ (stamp w.ts) (stamp w.mono) w.cc).2 }
  | .jumps amount => { w with ts := w.ts + amount }

/-- The clock is found to have jumped or to run at a wrong speed. -/
def Watched.alarms (w : Watched) : Bool := (clockcheckSample ℚ (stamp w.ts) (stamp w.mono) w.cc).1

/-- The speed of a clock under a correction in parts per billion. -/
def speed (ppb : Int) : ℚ := 1 + ppb / 1000000000

/-- While time passes the clock goes forward, and as soon as its frequency is known it is within
the limit of the corrected one. Corrections are within the range of the check, and the monotonic
clock stays in its own. -/
def Sound (w : Watched) : ClockEvent → Prop
  | .passes clock mono => 0 ≤ clock ∧ 0 ≤ mono ∧ w.mono + mono < 2 ^ 60 ∧
      (w.cc.freqKnown → (clock : ℚ) ≤ speed w.cc.currentFreq * (speed w.cc.freqLimit * mono) ∧
        speed w.cc.currentFreq * (speed (-w.cc.freqLimit) * mono) ≤ clock)
  | .setFreq freq => -checkMaxFreq ≤ freq ∧ freq ≤ checkMaxFreq
  | .step _ | .sample => True
  | .jumps _ => False

instance : DecidableRel Sound
  | _, .passes _ _ => inferInstanceAs (Decidable (_ ∧ _))
  | _, .setFreq _ => inferInstanceAs (Decidable (_ ∧ _))
  | _, .step _ | _, .sample => instDecidableTrue
  | _, .jumps _ => instDecidableFalse

/-- The advance of the clock since the last comparison, as the check computes it. -/
def Watched.interval (w : Watched) : Int := (stamp w.ts - w.cc.lastTs).toInt64.toInt

/-- The time of the monotonic clock since then. -/
def Watched.waited (w : Watched) : Int := (stamp w.mono - w.cc.lastMonoTs).toInt64.toInt

/-- A time stamp would come too early to be compared: either clock is less than the least interval
away from the last comparison. -/
def Watched.Early (w : Watched) : Prop :=
  (0 ≤ w.interval ∧ w.interval < checkMinInterval) ∨ w.waited < checkMinInterval

instance : DecidablePred Watched.Early := fun _ => inferInstanceAs (Decidable (_ ∨ _))

/-- No time stamp is compared either. Those that come too early may be checked. -/
def Uncompared (w : Watched) (event : ClockEvent) : Prop :=
  Sound w event ∧ (event = .sample → w.Early)

instance : DecidableRel Uncompared := fun _ _ => inferInstanceAs (Decidable (_ ∧ _))

/-! ## Speeds -/

section Speeds

variable {low high waited advance interval : Int} {least most : ℚ}

theorem speed_mono (order : low ≤ high) : speed low ≤ speed high := by
  unfold speed
  have cast : (low : ℚ) ≤ high := by exact_mod_cast order
  linarith

/-- A correction within the range of the check does not stop a clock. -/
theorem speed_pos (order : -checkMaxFreq ≤ low) : 0 < speed low := by
  have least : speed (-checkMaxFreq) ≤ speed low := speed_mono order
  have positive : (0 : ℚ) < speed (-checkMaxFreq) := by norm_num [speed, checkMaxFreq]
  exact positive.trans_le least

theorem speed_limit_pos {limit : Int} (positive : 0 ≤ limit) : 0 < speed limit :=
  speed_pos (le_trans (by decide) positive)

/-- What a clock advances at least is so for a smaller correction as well. -/
theorem least_mono (order : low ≤ high) (range : -checkMaxFreq ≤ low) (forward : 0 ≤ advance)
    (enough : speed high * least ≤ advance) : speed low * least ≤ advance := by
  have positive := (speed_pos range).le
  have cast : (0 : ℚ) ≤ advance := by exact_mod_cast forward
  rcases le_total 0 least with upward | downward
  · exact (mul_le_mul_of_nonneg_right (speed_mono order) upward).trans enough
  · exact (mul_nonpos_of_nonneg_of_nonpos positive downward).trans cast

/-- The offset is above a limit if the advance is more than at that speed. -/
theorem less_foffset {limit correction : Int} (time : 0 < waited)
    (range : -checkMaxFreq ≤ correction) :
    (limit : ℚ) < foffset ℚ interval waited correction ↔
      speed correction * (speed limit * waited) < interval := by
  have positive := speed_pos range
  have cast : (0 : ℚ) < waited := by exact_mod_cast time
  have same : foffset ℚ interval waited correction =
      1000000000 * (interval / speed correction / waited - 1) := by
    unfold foffset speed
    norm_num
  rw [same, ← mul_assoc, mul_comm (speed correction), mul_assoc, mul_comm (speed correction),
    ← mul_assoc, ← lt_div_iff₀ positive, ← lt_div_iff₀ cast]
  unfold speed
  constructor <;> intro above <;> linarith

theorem foffset_less {limit correction : Int} (time : 0 < waited)
    (range : -checkMaxFreq ≤ correction) :
    foffset ℚ interval waited correction < -(limit : ℚ) ↔
      (interval : ℚ) < speed correction * (speed (-limit) * waited) := by
  have positive := speed_pos range
  have cast : (0 : ℚ) < waited := by exact_mod_cast time
  have same : foffset ℚ interval waited correction =
      1000000000 * (interval / speed correction / waited - 1) := by
    unfold foffset speed
    norm_num
  rw [same, ← mul_assoc, mul_comm (speed correction), mul_assoc, mul_comm (speed correction),
    ← mul_assoc, ← div_lt_iff₀ positive, ← div_lt_iff₀ cast]
  unfold speed
  push_cast
  constructor <;> intro below <;> linarith

end Speeds

/-! ## Times that are stored -/

theorem stamp_sub {later earlier : Int} (low : -2 ^ 63 ≤ later - earlier)
    (high : later - earlier < 2 ^ 63) :
    (stamp later - stamp earlier).toInt64.toInt = later - earlier := by
  have same : stamp later - stamp earlier = (Int64.ofInt (later - earlier)).toUInt64 := by
    rw [Int64.ofInt_sub, Int64.toUInt64_sub]
    rfl
  rw [same, Int64.toInt64_toUInt64, Int64.toInt_ofInt_of_le low high]

theorem stamp_step (time : Int) (amount : Int64) :
    stamp (time + amount.toInt) = stamp time + amount.toUInt64 := by
  unfold stamp
  rw [Int64.ofInt_add, Int64.ofInt_toInt, Int64.toUInt64_add]

/-! ## What is known of the advance of the clock -/

/-- Since the last comparison the clock has advanced at a speed within the limit of those that were
set, and been set by something else as well. -/
structure Advances (w : Watched) (advance waited excess : Int) : Prop where
  ts : w.cc.lastTs = stamp (w.ts - (advance + excess))
  mono : w.cc.lastMonoTs = stamp (w.mono - waited)
  forward : 0 ≤ advance
  since : 0 ≤ waited ∧ waited ≤ w.mono
  most : (advance : ℚ) ≤ speed w.cc.maxFreq * (speed w.cc.freqLimit * waited)
  least : speed w.cc.minFreq * (speed (-w.cc.freqLimit) * waited) ≤ advance

/-- What every run keeps. -/
structure Explained (excess : Int) (w : Watched) : Prop where
  limit : 0 ≤ w.cc.freqLimit ∧ w.cc.freqLimit < 2 ^ 31
  range : -checkMaxFreq ≤ w.cc.minFreq ∧ w.cc.maxFreq ≤ checkMaxFreq
  current : w.cc.freqKnown → w.cc.minFreq ≤ w.cc.currentFreq ∧ w.cc.currentFreq ≤ w.cc.maxFreq
  mono : 0 ≤ w.mono ∧ w.mono < 2 ^ 60
  known : w.cc.lastTs ≠ 0 → w.cc.freqKnown
  last : w.cc.lastTs ≠ 0 → ∃ advance waited, Advances w advance waited excess

section Explaining

variable {w : Watched} {advance waited excess : Int}

/-- No advance is too long to be stored. -/
theorem Advances.short (advances : Advances w advance waited excess)
    (explained : Explained excess w) : advance < 6 * 2 ^ 60 := by
  have fast : speed w.cc.maxFreq ≤ 19 / 10 := by
    refine (speed_mono explained.range.2).trans ?_
    norm_num [speed, checkMaxFreq]
  have limit : speed w.cc.freqLimit ≤ 315 / 100 := by
    refine (speed_mono (Int.le_sub_one_of_lt explained.limit.2)).trans ?_
    norm_num [speed]
  have time : (waited : ℚ) ≤ 2 ^ 60 := by
    have whole : waited ≤ 2 ^ 60 := advances.since.2.trans explained.mono.2.le
    exact_mod_cast whole
  have since : (0 : ℚ) ≤ waited := by exact_mod_cast advances.since.1
  have slower : speed w.cc.maxFreq * (speed w.cc.freqLimit * waited) ≤
      19 / 10 * (315 / 100 * 2 ^ 60) := by
    have positive := (speed_limit_pos explained.limit.1).le
    exact mul_le_mul fast (mul_le_mul limit time since (by norm_num))
      (mul_nonneg positive since) (by norm_num)
  have below : (advance : ℚ) < ((6 * 2 ^ 60 : Int) : ℚ) := by
    refine (advances.most.trans slower).trans_lt ?_
    norm_num
  exact_mod_cast below

/-- The time since the last comparison can always be stored. -/
theorem Advances.waited_eq (advances : Advances w advance waited excess)
    (explained : Explained excess w) : w.waited = waited := by
  have time := advances.since
  have mono := explained.mono
  unfold Watched.waited
  rw [advances.mono]
  rw [stamp_sub] <;> omega

/-- So can an advance, unless what was set by something else is beyond 64 bits. -/
theorem Advances.interval_eq (advances : Advances w advance waited excess)
    (low : -2 ^ 63 ≤ advance + excess) (high : advance + excess < 2 ^ 63) :
    w.interval = advance + excess := by
  unfold Watched.interval
  rw [advances.ts]
  rw [stamp_sub] <;> omega

theorem Explained.passes {clock mono : Int} (explained : Explained excess w)
    (sound : Sound w (.passes clock mono)) :
    Explained excess { w with ts := w.ts + clock, mono := w.mono + mono } := by
  obtain ⟨ahead, later, bounded, within⟩ := sound
  have range : 0 ≤ w.mono + mono := Int.add_nonneg explained.mono.1 later
  refine { explained with mono := ⟨range, bounded⟩, last := ?_ }
  intro last
  obtain ⟨advance, waited, advances⟩ := explained.last last
  have known := explained.known last
  obtain ⟨slow, fast⟩ := explained.current known
  obtain ⟨most, least⟩ := within known
  refine ⟨advance + clock, waited + mono, ?_⟩
  constructor
  · rw [advances.ts]
    congr 1
    dsimp only
    omega
  · rw [advances.mono]
    congr 1
    dsimp only
    omega
  · have := advances.forward
    omega
  · have := advances.since
    dsimp only
    omega
  · have room : 0 ≤ speed w.cc.freqLimit * mono :=
      mul_nonneg (speed_limit_pos explained.limit.1).le (by exact_mod_cast later)
    have slower := mul_le_mul_of_nonneg_right (speed_mono fast) room
    have before := advances.most
    push_cast
    linarith
  · have here := least_mono slow explained.range.1 ahead least
    have before := advances.least
    push_cast
    linarith

theorem Explained.setFreq {freq : Int} (explained : Explained excess w)
    (sound : Sound w (.setFreq freq)) :
    Explained excess { w with cc := clockcheckSetFreq freq w.cc } := by
  obtain ⟨low, high⟩ := sound
  have range := explained.range
  have slower : (if w.cc.minFreq > freq then freq else w.cc.minFreq) ≤ w.cc.minFreq := by
    split <;> omega
  have faster : w.cc.maxFreq ≤ (if w.cc.maxFreq < freq then freq else w.cc.maxFreq) := by
    split <;> omega
  have reached : -checkMaxFreq ≤ (if w.cc.minFreq > freq then freq else w.cc.minFreq) := by
    split <;> omega
  constructor
  · exact explained.limit
  · refine ⟨reached, ?_⟩
    unfold clockcheckSetFreq
    dsimp only
    split <;> omega
  · intro _
    unfold clockcheckSetFreq
    dsimp only
    constructor <;> split <;> omega
  · exact explained.mono
  · exact fun _ => rfl
  · intro last
    obtain ⟨advance, waited, advances⟩ := explained.last last
    have room : 0 ≤ speed w.cc.freqLimit * waited :=
      mul_nonneg (speed_limit_pos explained.limit.1).le (by exact_mod_cast advances.since.1)
    refine ⟨advance, waited, { advances with most := ?_, least := ?_ }⟩
    · exact advances.most.trans (mul_le_mul_of_nonneg_right (speed_mono faster) room)
    · exact least_mono slower reached advances.forward advances.least

theorem Explained.step {amount : Int64} (explained : Explained excess w) :
    Explained excess
      { w with ts := w.ts + amount.toInt, cc := clockcheckStep amount w.cc } := by
  unfold clockcheckStep
  split
  next last =>
    refine { explained with known := fun _ => explained.known last, last := fun _ => ?_ }
    obtain ⟨advance, waited, advances⟩ := explained.last last
    refine ⟨advance, waited, { advances with ts := ?_ }⟩
    dsimp only
    rw [advances.ts, ← stamp_step]
    congr 1
    omega
  next none =>
    exact { explained with known := fun last => absurd last none
                           last := fun last => absurd last none }

/-- A comparison is made unless too little time has passed, and everything begins anew with it. -/
theorem clockcheckSample_cases (ts monoTs : UInt64) (cc : ClockCheck) :
    clockcheckSample ℚ ts monoTs cc = (false, cc) ∨
      cc.freqKnown ∧ checkMinInterval ≤ (monoTs - cc.lastMonoTs).toInt64.toInt ∧
        clockcheckSample ℚ ts monoTs cc =
          (warns ℚ (ts - cc.lastTs).toInt64.toInt (monoTs - cc.lastMonoTs).toInt64.toInt cc,
            { cc with
              lastMonoTs := monoTs, lastTs := ts
              maxFreq := cc.currentFreq, minFreq := cc.currentFreq }) := by
  unfold clockcheckSample
  dsimp only
  split
  · exact Or.inl rfl
  next known =>
    split
    · exact Or.inl rfl
    split
    · exact Or.inl rfl
    next time => exact Or.inr ⟨by simpa using known, not_lt.mp time, rfl⟩

theorem Explained.sample (explained : Explained 0 w) : Explained 0 (watchedStep w .sample) := by
  rcases clockcheckSample_cases (stamp w.ts) (stamp w.mono) w.cc with same | ⟨known, -, same⟩
  · have still : watchedStep w .sample = w := by
      unfold watchedStep
      rw [same]
    rw [still]
    exact explained
  · obtain ⟨slow, fast⟩ := explained.current known
    unfold watchedStep
    dsimp only
    rw [same]
    constructor
    · exact explained.limit
    · exact ⟨explained.range.1.trans slow, fast.trans explained.range.2⟩
    · exact fun _ => ⟨le_refl _, le_refl _⟩
    · exact explained.mono
    · exact fun _ => known
    · refine fun _ => ⟨0, 0, ?_⟩
      constructor
      · simp
      · simp
      · exact le_refl 0
      · exact ⟨le_refl 0, explained.mono.1⟩
      · simp
      · simp

/-- A comparison warns if and only if the advance is not within the limit at the speeds set. -/
theorem Explained.warns_iff (explained : Explained excess w) (time : 0 < waited)
    (last : w.cc.lastTs ≠ 0) {interval : Int} :
    warns ℚ interval waited w.cc = true ↔
      speed w.cc.maxFreq * (speed w.cc.freqLimit * waited) < interval ∨
        (interval : ℚ) < speed w.cc.minFreq * (speed (-w.cc.freqLimit) * waited) := by
  obtain ⟨slow, fast⟩ := explained.current (explained.known last)
  have above : -checkMaxFreq ≤ w.cc.maxFreq := explained.range.1.trans (slow.trans fast)
  unfold warns
  rw [decide_eq_true last, decide_eq_true explained.range.2, Bool.and_true, Bool.true_and,
    Bool.or_eq_true, decide_eq_true_eq, decide_eq_true_eq, less_foffset time above,
    foffset_less time explained.range.1]

/-- What is explained does not alarm. -/
theorem Explained.calm (explained : Explained 0 w) : w.alarms = false := by
  unfold Watched.alarms
  rcases clockcheckSample_cases (stamp w.ts) (stamp w.mono) w.cc with same | ⟨-, time, same⟩
  · rw [same]
  · rw [same]
    change checkMinInterval ≤ w.waited at time
    change warns ℚ w.interval w.waited w.cc = false
    by_cases last : w.cc.lastTs = 0
    · simp [warns, last]
    · obtain ⟨advance, waited, advances⟩ := explained.last last
      have short := advances.short explained
      have forward := advances.forward
      have interval := advances.interval_eq (by omega) (by omega)
      have monoInterval := advances.waited_eq explained
      rw [monoInterval] at time
      rw [interval, monoInterval, add_zero]
      have passed : 0 < waited := lt_of_lt_of_le (by decide) time
      by_contra alarm
      rw [Bool.not_eq_false, explained.warns_iff passed last] at alarm
      rcases alarm with fast | slow
      · exact absurd advances.most (not_le.mpr fast)
      · exact absurd advances.least (not_le.mpr slow)

theorem Explained.sound (explained : Explained 0 w) {event : ClockEvent} (sound : Sound w event) :
    Explained 0 (watchedStep w event) := by
  cases event with
  | passes clock mono => exact explained.passes sound
  | setFreq freq => exact explained.setFreq sound
  | step amount => exact explained.step
  | sample => exact explained.sample
  | jumps amount => exact sound.elim

/-- A time stamp that comes too early changes nothing. -/
theorem Watched.Early.sample (early : w.Early) : watchedStep w .sample = w := by
  have same : clockcheckSample ℚ (stamp w.ts) (stamp w.mono) w.cc = (false, w.cc) := by
    unfold clockcheckSample
    split
    · rfl
    · dsimp only
      split
      · rfl
      next apart => exact if_pos (early.resolve_left apart)
  unfold watchedStep
  rw [same]

/-- Without a comparison, an excess stays as it is. -/
theorem Explained.waits (explained : Explained excess w) {event : ClockEvent}
    (uncompared : Uncompared w event) : Explained excess (watchedStep w event) := by
  obtain ⟨sound, early⟩ := uncompared
  cases event with
  | passes clock mono => exact explained.passes sound
  | setFreq freq => exact explained.setFreq sound
  | step amount => exact explained.step
  | sample =>
    rw [(early rfl).sample]
    exact explained
  | jumps amount => exact sound.elim

theorem Explained.jumps (explained : Explained 0 w) (amount : Int) :
    Explained amount (watchedStep w (.jumps amount)) := by
  refine { explained with last := fun last => ?_ }
  obtain ⟨advance, waited, advances⟩ := explained.last last
  refine ⟨advance, waited, { advances with ts := ?_ }⟩
  change w.cc.lastTs = stamp (w.ts + amount - (advance + amount))
  rw [advances.ts]
  congr 1
  omega

end Explaining

/-! ## Jumps -/

/-- The next time stamp is compared with one before. -/
structure Watched.Compares (w : Watched) : Prop where
  last : w.cc.lastTs ≠ 0
  late : ¬w.Early

/-- The most that the clock may have advanced since the last comparison. -/
def Watched.most (w : Watched) : ℚ := speed w.cc.maxFreq * (speed w.cc.freqLimit * w.waited)

/-- The least that it must have. -/
def Watched.least (w : Watched) : ℚ := speed w.cc.minFreq * (speed (-w.cc.freqLimit) * w.waited)

/-- An excess is found unless it is small enough to be explained by the frequencies, or so large
that the advance with it does not fit into 64 bits. -/
theorem Explained.alarms {w : Watched} {excess : Int} (explained : Explained excess w)
    (compares : w.Compares) (low : -2 ^ 63 ≤ excess) (high : w.most + excess < 2 ^ 63)
    (far : w.most - w.least < |(excess : ℚ)|) : w.alarms = true := by
  obtain ⟨last, late⟩ := compares
  obtain ⟨apart, time⟩ := not_or.mp late
  obtain ⟨advance, waited, advances⟩ := explained.last last
  have monoInterval := advances.waited_eq explained
  have known := explained.known last
  unfold Watched.most at high far
  unfold Watched.least at far
  rw [monoInterval] at high far
  have forward := advances.forward
  have stored : advance + excess < 2 ^ 63 := by
    have most := advances.most
    have cast : ((advance + excess : Int) : ℚ) < ((2 ^ 63 : Int) : ℚ) := by
      push_cast
      linarith
    exact_mod_cast cast
  have interval := advances.interval_eq (by omega) stored
  have compared : w.alarms = warns ℚ (advance + excess) waited w.cc := by
    unfold Watched.alarms clockcheckSample
    dsimp only
    rw [if_neg (by simp [known])]
    refine (congrArg Prod.fst ((if_neg apart).trans (if_neg time))).trans ?_
    change warns ℚ w.interval w.waited w.cc = _
    rw [interval, monoInterval]
  rw [monoInterval] at time
  replace time := not_lt.mp time
  have passed : 0 < waited := lt_of_lt_of_le (by decide) time
  rw [compared, explained.warns_iff passed last]
  have most := advances.most
  have least := advances.least
  push_cast
  rcases abs_cases (excess : ℚ) with ⟨same, _⟩ | ⟨same, _⟩
  · rw [same] at far
    exact Or.inl (by linarith)
  · rw [same] at far
    exact Or.inr (by linarith)

/-! ## Runs -/

/-- A check that is created at some time. -/
def Watched.created (freqLimit ts mono : Int) : Watched := ⟨clockcheckCreate freqLimit, ts, mono⟩

theorem explained_created {freqLimit ts mono : Int}
    (limit : 0 ≤ freqLimit ∧ freqLimit < 2 ^ 31) (time : 0 ≤ mono ∧ mono < 2 ^ 60) :
    Explained 0 (Watched.created freqLimit ts mono) :=
  { limit := limit
    range := ⟨neg_le_self (by decide), neg_le_self (by decide)⟩
    current := nofun
    mono := time
    known := fun last => absurd rfl last
    last := fun last => absurd rfl last }

/-- A clock that runs as it should for two comparisons. -/
def goodEvents : List ClockEvent :=
  [.passes 1000 1000, .setFreq 100, .sample, .passes 1000000100 1000000000, .setFreq (-5000), .step 7,
    .passes 900000000 1000000000, .sample]

/-- The first comparison after a jump raises an alarm if the jump is larger than what is unknown of
the advance of the clock. Time stamps that come too early to be compared may be checked before, and
the jump may be as large as the advance can be stored with it.

Proof: what the check sees is the advance of the clock with the jump on top. If the jump is larger
than the most less the least, then the sum is above the most or below the least, and one of the two
comparisons fails. -/
theorem jump_noticed {freqLimit ts mono amount : Int} {w : Watched} {before after : List ClockEvent}
    (limit : 0 ≤ freqLimit ∧ freqLimit < 2 ^ 31) (time : 0 ≤ mono ∧ mono < 2 ^ 60)
    (sound : Along watchedStep Sound (Watched.created freqLimit ts mono) before)
    (jumped : w = watchedStep (before.foldl watchedStep (Watched.created freqLimit ts mono))
      (.jumps amount))
    (later : Along watchedStep Uncompared w after)
    (compares : (after.foldl watchedStep w).Compares) (low : -2 ^ 63 ≤ amount)
    (high : (after.foldl watchedStep w).most + amount < 2 ^ 63)
    (far : (after.foldl watchedStep w).most - (after.foldl watchedStep w).least < |(amount : ℚ)|) :
    (after.foldl watchedStep w).alarms = true := by
  have explained : Explained 0 (before.foldl watchedStep (Watched.created freqLimit ts mono)) :=
    sound.keeps (explained_created limit time) fun _ _ explained sound => explained.sound sound
  have set : Explained amount w := by
    rw [jumped]
    exact explained.jumps amount
  have waits : Explained amount (after.foldl watchedStep w) :=
    later.keeps set fun _ _ explained uncompared => explained.waits uncompared
  exact waits.alarms compares low high far

/-- The clock is reset, and a time stamp comes too early to show it. -/
theorem jump_noticed_reset :
    ([ClockEvent.passes 1000000 1000000, .sample, .passes 1000000000 1000000000].foldl watchedStep
      (watchedStep (goodEvents.foldl watchedStep
        (Watched.created 200000000 1700000000000000000 5000000000))
        (.jumps (-1700000000000000000)))).alarms = true :=
  jump_noticed (by decide) (by decide) (by decide +kernel : Along watchedStep Sound _ goodEvents) rfl
    (by decide +kernel) ⟨by decide +kernel, by decide +kernel⟩ (by decide) (by decide +kernel)
    (by decide +kernel)

end LinuxPtp.SanityCheck
