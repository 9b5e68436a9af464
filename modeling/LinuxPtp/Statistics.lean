import LinuxPtp.FloatingPoint
import LinuxPtp.RunningMoments

/-!
# Summaries of a clock

With a summary interval longer than that of the Sync messages a clock does not print every offset
but a summary of several. What it prints is found by updating few numbers (`stats.c`), and is what
the values themselves give.

The numbers are rational here, and the square root is any function, as it is applied to the same
argument on both sides. The events are those of a clock, in any order.
-/

namespace LinuxPtp.Statistics

open FloatingPoint

universe u
variable {F : Type u} [Double F]

/-- `struct stats`, as `stats_create` and `stats_reset` leave it. -/
structure Stats (F : Type u) [Double F] where
  num : UInt32 := 0
  min : F := 0.0
  max : F := 0.0
  mean : F := 0.0
  sumSqr : F := 0.0
  sumDiffSqr : F := 0.0

/-- `struct stats_result`. -/
structure StatsResult (F : Type u) where
  min : F
  max : F
  maxAbs : F
  mean : F
  rms : F
  stddev : F

/-- `stats_add_value`. -/
def statsAddValue (value : F) (stats : Stats F) : Stats F :=
  let oldMean := stats.mean
  let max := if stats.num = 0 ∨ stats.max < value then value else stats.max
  let min := if stats.num = 0 ∨ value < stats.min then value else stats.min
  let num := stats.num + 1
  let mean := oldMean + (value - oldMean) / ((num.toNat : Int) : F)
  { num := num
    min := min
    max := max
    mean := mean
    sumSqr := stats.sumSqr + value * value
    sumDiffSqr := stats.sumDiffSqr + (value - oldMean) * (value - mean) }

section Summaries

variable (sqrt : F → F)

/-- `stats_get_result`. -/
def statsGetResult (stats : Stats F) : Option (StatsResult F) :=
  if stats.num = 0 then none else
    let num : F := ((stats.num.toNat : Int) : F)
    some
      { min := stats.min
        max := stats.max
        maxAbs := if -stats.min < stats.max then stats.max else -stats.min
        mean := stats.mean
        rms := sqrt (stats.sumSqr / num)
        stddev := sqrt (stats.sumDiffSqr / num) }

/-! ## Summaries (`clock.c`) -/

/-- `struct clock_stats`, with the summary interval. -/
structure ClockStats (F : Type u) [Double F] where
  offset : Stats F := {}
  freq : Stats F := {}
  delay : Stats F := {}
  maxCount : UInt32
  statsInterval : Int

/-- What is printed: the results of the offsets and frequencies, and of the delays if there are
any. -/
structure Summary (F : Type u) where
  offset : Option (StatsResult F)
  freq : Option (StatsResult F)
  delay : Option (StatsResult F)

/-- The part of `clock_sync_interval` that is about the summaries. -/
def clockSyncInterval (n : Int) (s : ClockStats F) : ClockStats F :=
  let shift := s.statsInterval - n
  let shift := if shift < 0 then 0 else if shift ≥ 32 then 31 else shift
  { s with maxCount := 1 <<< UInt32.ofNat shift.toNat }

/-- The statistics as `clock_create` leaves them. -/
def clockStats (statsInterval : Int) : ClockStats F :=
  clockSyncInterval 0 { maxCount := 0, statsInterval := statsInterval }

/-- `clock_stats_update`. -/
def clockStatsUpdate (offset freq : F) (s : ClockStats F) : Option (Summary F) × ClockStats F :=
  let s := { s with offset := statsAddValue offset s.offset, freq := statsAddValue freq s.freq }
  if s.offset.num < s.maxCount then (none, s) else
    (some
      { offset := statsGetResult sqrt s.offset
        freq := statsGetResult sqrt s.freq
        delay := statsGetResult sqrt s.delay },
      { s with offset := {}, freq := {}, delay := {} })

/-- What happens to the statistics. -/
inductive StatsEvent (F : Type u) where
  /-- A path delay was measured. -/
  | delay (value : F)
  /-- An offset was measured, and a frequency found. -/
  | sample (offset freq : F)
  /-- The interval of the Sync messages is another one. -/
  | interval (n : Int)

/-- One event: what is printed, if it is a summary. Every offset is printed for itself if no more
than one goes into a summary. -/
def statsStep (s : ClockStats F) : StatsEvent F → Option (Summary F) × ClockStats F
  | .delay value => (none, { s with delay := statsAddValue value s.delay })
  | .sample offset freq =>
    if s.maxCount > 1 then clockStatsUpdate sqrt offset freq s else (none, s)
  | .interval n => (none, clockSyncInterval n s)

/-- The summaries that are printed. -/
def summaries (s : ClockStats F) : List (StatsEvent F) → List (Summary F)
  | [] => []
  | event :: events =>
    let (printed, s) := statsStep sqrt s event
    printed.toList ++ summaries s events

end Summaries

/-! ## The values themselves -/

section Plain

open RunningMoments

/-- The statistics of values, from all of them. -/
def plainResult (sqrt : ℚ → ℚ) (values : List ℚ) : Option (StatsResult ℚ) :=
  match values.min?, values.max?, (values.map fun x => |x|).max? with
  | some min, some max, some maxAbs => some
      { min := min
        max := max
        maxAbs := maxAbs
        mean := mean values
        rms := sqrt (squares values / values.length)
        stddev := sqrt (deviations values / values.length) }
  | _, _, _ => none

/-- All values since the last summary. -/
structure Pending where
  offsets : List ℚ := []
  freqs : List ℚ := []
  delays : List ℚ := []

/-- The summaries of all that came since the one before, as soon as there are enough offsets. -/
def plainSummaries (sqrt : ℚ → ℚ) (statsInterval : Int) :
    UInt32 → Pending → List (StatsEvent ℚ) → List (Summary ℚ)
  | _, _, [] => []
  | maxCount, pending, .delay value :: events =>
    plainSummaries sqrt statsInterval maxCount { pending with delays := value :: pending.delays }
      events
  | maxCount, pending, .sample offset freq :: events =>
    if maxCount ≤ 1 then plainSummaries sqrt statsInterval maxCount pending events else
      let offsets := offset :: pending.offsets
      let freqs := freq :: pending.freqs
      if offsets.length < maxCount.toNat then
        plainSummaries sqrt statsInterval maxCount
          { pending with offsets := offsets, freqs := freqs } events
      else
        ⟨plainResult sqrt offsets, plainResult sqrt freqs, plainResult sqrt pending.delays⟩ ::
          plainSummaries sqrt statsInterval maxCount {} events
  | _, pending, .interval n :: events =>
    plainSummaries sqrt statsInterval
      (clockSyncInterval n { maxCount := 0, statsInterval := statsInterval : ClockStats ℚ }).maxCount
      pending events

/-! ## Nothing is lost in the numbers that are kept -/

variable {s : Stats ℚ} {values : List ℚ} {x : ℚ} {sqrt : ℚ → ℚ}

/-- The numbers that are kept are those of the values. -/
structure Describes (s : Stats ℚ) (values : List ℚ) : Prop where
  number : s.num.toNat = values.length
  least : values ≠ [] → values.min? = some s.min
  greatest : values ≠ [] → values.max? = some s.max
  average : s.mean = mean values
  sumSqr : s.sumSqr = squares values
  sumDiffSqr : s.sumDiffSqr = deviations values

theorem describes_none : Describes {} [] := by
  constructor <;> norm_num [mean, squares, deviations, spread]

theorem Describes.empty_iff (describes : Describes s values) : s.num = 0 ↔ values = [] := by
  rw [← List.length_eq_zero_iff, ← describes.number]
  exact UInt32.toNat_inj.symm

/-- The greatest value is the new one or that of the others. -/
theorem Describes.max_cons (describes : Describes s values) :
    (x :: values).max? = some (if s.num = 0 ∨ s.max < x then x else s.max) := by
  by_cases first : values = []
  · rw [if_pos (Or.inl (describes.empty_iff.mpr first)), first]
    rfl
  · rw [List.max?_cons, describes.greatest first, Option.elim_some]
    have counted : s.num ≠ 0 := fun none => first (describes.empty_iff.mp none)
    by_cases greater : s.max < x
    · rw [if_pos (Or.inr greater), max_eq_left greater.le]
    · rw [if_neg (by simp [counted, greater]), max_eq_right (not_lt.mp greater)]

theorem Describes.min_cons (describes : Describes s values) :
    (x :: values).min? = some (if s.num = 0 ∨ x < s.min then x else s.min) := by
  by_cases first : values = []
  · rw [if_pos (Or.inl (describes.empty_iff.mpr first)), first]
    rfl
  · rw [List.min?_cons, describes.least first, Option.elim_some]
    have counted : s.num ≠ 0 := fun none => first (describes.empty_iff.mp none)
    by_cases less : x < s.min
    · rw [if_pos (Or.inr less), min_eq_left less.le]
    · rw [if_neg (by simp [counted, less]), min_eq_right (not_lt.mp less)]

/-- A value is added: the mean and the sum of the squared deviations are brought up to date from
those of the values before. -/
theorem Describes.add (describes : Describes s values) (few : values.length + 1 < 2 ^ 32) :
    Describes (statsAddValue x s) (x :: values) := by
  have counted : (s.num + 1).toNat = values.length + 1 := by
    rw [UInt32.toNat_add, describes.number]
    exact Nat.mod_eq_of_lt few
  have moved : s.mean + (x - s.mean) / (((s.num + 1).toNat : Int) : ℚ) =
      mean (x :: values) := by
    rw [describes.average, mean_cons, counted]
    push_cast
    rfl
  constructor
  · exact counted
  · exact fun _ => describes.min_cons
  · exact fun _ => describes.max_cons
  · exact moved
  · unfold statsAddValue squares
    dsimp only
    rw [describes.sumSqr, List.map_cons, List.sum_cons, add_comm]
    rfl
  · rw [deviations_cons, ← moved, ← describes.average, ← describes.sumDiffSqr]
    rfl

theorem Describes.result (describes : Describes s values) :
    statsGetResult sqrt s = plainResult sqrt values := by
  unfold statsGetResult plainResult
  by_cases none : values = []
  · rw [if_pos (describes.empty_iff.mpr none), none]
    rfl
  · rw [if_neg fun empty => none (describes.empty_iff.mp empty), describes.least none,
      describes.greatest none, max_abs (describes.least none) (describes.greatest none), describes.number]
    have greatest : (if -s.min < s.max then s.max else -s.min) = max s.max (-s.min) := by
      split
      next above => exact (max_eq_left above.le).symm
      next below => exact (max_eq_right (not_lt.mp below)).symm
    dsimp only
    rw [greatest, describes.average, describes.sumSqr, describes.sumDiffSqr]
    push_cast
    rfl

/-! ## Runs -/

/-- The statistics of a clock are those of all that came since the last summary. -/
structure Current (s : ClockStats ℚ) (pending : Pending) : Prop where
  offset : Describes s.offset pending.offsets
  freq : Describes s.freq pending.freqs
  delay : Describes s.delay pending.delays

/-- There are not more values than that since the last summary. -/
def Pending.Below (pending : Pending) (most : Nat) : Prop :=
  pending.offsets.length < most ∧ pending.freqs.length < most ∧ pending.delays.length < most

theorem summaries_current {s : ClockStats ℚ} {pending : Pending} (current : Current s pending)
    {events : List (StatsEvent ℚ)} (few : pending.Below (2 ^ 32 - events.length)) :
    summaries sqrt s events = plainSummaries sqrt s.statsInterval s.maxCount pending events := by
  induction events generalizing s pending with
  | nil => rfl
  | cons event events inductionHypothesis =>
    obtain ⟨offsets, freqs, delays⟩ := few
    rw [List.length_cons] at offsets freqs delays
    cases event with
    | delay value =>
      have added : Current { s with delay := statsAddValue value s.delay }
          { pending with delays := value :: pending.delays } :=
        { current with delay := current.delay.add (by omega) }
      exact inductionHypothesis added ⟨by grind, by grind, by grind⟩
    | interval n =>
      have same : Current (clockSyncInterval n s) pending := ⟨current.1, current.2, current.3⟩
      exact inductionHypothesis same ⟨by omega, by omega, by omega⟩
    | sample offset freq =>
      have offset' : Describes (statsAddValue offset s.offset) (offset :: pending.offsets) :=
        current.offset.add (by omega)
      have freq' : Describes (statsAddValue freq s.freq) (freq :: pending.freqs) :=
        current.freq.add (by omega)
      rw [summaries, plainSummaries, statsStep]
      by_cases several : s.maxCount > 1
      · rw [if_pos several, if_neg (by simpa using several)]
        unfold clockStatsUpdate
        dsimp only
        have counted : (statsAddValue offset s.offset).num < s.maxCount ↔
            (offset :: pending.offsets).length < s.maxCount.toNat := by
          rw [UInt32.lt_iff_toNat_lt, offset'.number]
        by_cases more : (offset :: pending.offsets).length < s.maxCount.toNat
        · rw [if_pos (counted.mpr more), if_pos more]
          exact inductionHypothesis ⟨offset', freq', current.delay⟩
            ⟨by grind, by grind, by grind⟩
        · rw [if_neg fun less => more (counted.mp less), if_neg more, offset'.result, freq'.result,
            current.delay.result]
          have reset : Current { s with offset := {}, freq := {}, delay := {} } {} :=
            ⟨describes_none, describes_none, describes_none⟩
          exact congrArg (List.cons _) (inductionHypothesis reset ⟨by grind, by grind, by grind⟩)
      · rw [if_neg several, if_pos (by simpa using several)]
        exact inductionHypothesis current ⟨by omega, by omega, by omega⟩

end Plain

end LinuxPtp.Statistics
