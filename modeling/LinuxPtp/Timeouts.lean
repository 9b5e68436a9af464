import LinuxPtp.CheckedArithmetic
import LinuxPtp.Tmv
import Mathlib.Algebra.Order.Floor.Ring
import Mathlib.Algebra.Order.Field.Power
import Mathlib.Data.Rat.Floor
import Mathlib.Tactic.Linarith
import Mathlib.Tactic.NormNum

/-!
# Timeouts

`set_tmo_log` and `set_tmo_random` scale seconds by a power of two with shifts. Where the
intermediate results fit their types they program the interval that is meant, rounded down to a
nanosecond.

The time that is meant is a rational number, so that negative exponents are not a case of their
own in the statements. Where a shift does not fit, nothing is said of the value that is
programmed.
-/

namespace LinuxPtp.Timeouts

open CheckedArithmetic

/-! ## The code (`port.c`) -/

def int32 : IntType := ⟨32, true⟩
def uint32 : IntType := ⟨32, false⟩
def int64 : IntType := ⟨64, true⟩
def uint64 : IntType := ⟨64, false⟩

/-- `it_value` of `struct itimerspec`. Zero disarms the timer. -/
structure TimerValue where
  sec : Int
  nsec : Int
deriving DecidableEq

/-- The loop that carries seconds over. -/
def normalise (sec nsec : Int) : TimerValue :=
  if nsec ≥ nsPerSec then normalise (sec + 1) (nsec - nsPerSec) else ⟨sec, nsec⟩
termination_by nsec.toNat
decreasing_by simp only [nsPerSec] at *; omega

/-- The loop that halves the nanoseconds. -/
def halve (times : Nat) (ns : Int) : Int := (· / 2)^[times] ns

/-- `set_tmo_log`: what it programs. -/
def setTmoLog (scale logSeconds : Int) : Checked TimerValue :=
  if logSeconds < 0 then do
    let logSeconds ← into int32 (logSeconds * -1)
    let ns ← into uint64 (scale * 500000000)
    let nsec ← into int64 (halve (logSeconds - 1).toNat ns)
    pure (normalise 0 nsec)
  else do
    let shifted ← shl int32 1 logSeconds
    let factor ← into uint32 shifted
    let sec ← into uint32 (scale * factor)
    pure ⟨sec, 0⟩

/-- `min_ns` and `span_ns` of `set_tmo_random`. -/
def scaledNs (seconds logSeconds : Int) : Checked Int := do
  let ns ← into int64 (seconds * nsPerSec)
  let ns ← if logSeconds ≥ 0 then shl int64 ns logSeconds else shr int64 ns (-logSeconds)
  into uint64 ns

/-- `set_tmo_random`: what it programs if `random` returns the supplied number. -/
def setTmoRandom (min span logSeconds : Int) (random : Nat) : Checked TimerValue := do
  let minNs ← scaledNs min logSeconds
  let spanNs ← scaledNs span logSeconds
  let product ← into uint64 (spanNs * (random % 2 ^ 15 + 1 : Nat))
  let part ← shr uint64 product 15
  let valueNs ← into uint64 (minNs + part)
  pure ⟨valueNs / nsPerSec, valueNs % nsPerSec⟩

/-- What the callers take from a port: the configuration, and the delay interval that
`process_delay_resp` may replace. -/
structure PortIntervals where
  announceReceiptTimeout : Int
  announceSpan : Int
  syncReceiptTimeout : Int
  stepsRemoved : Int
  logAnnounceInterval : Int
  logSyncInterval : Int
  logMinDelayReqInterval : Int
  logMinPdelayReqInterval : Int

/-- The defaults of `config.c`. -/
def PortIntervals.defaults : PortIntervals where
  announceReceiptTimeout := 3
  announceSpan := 1
  syncReceiptTimeout := 0
  stepsRemoved := 0
  logAnnounceInterval := 1
  logSyncInterval := 0
  logMinDelayReqInterval := 0
  logMinPdelayReqInterval := 0

/-- `port_set_announce_tmo`. -/
def portSetAnnounceTmo (p : PortIntervals) : Nat → Checked TimerValue :=
  setTmoRandom p.announceReceiptTimeout p.announceSpan p.logAnnounceInterval

/-- `port_set_delay_tmo` of a port that measures end to end. -/
def portSetDelayTmo (p : PortIntervals) : Nat → Checked TimerValue :=
  setTmoRandom 0 2 p.logMinDelayReqInterval

/-- `port_set_delay_tmo` of a port that measures from peer to peer. -/
def portSetPdelayTmo (p : PortIntervals) : Checked TimerValue :=
  setTmoLog 1 p.logMinPdelayReqInterval

/-- `port_set_manno_tmo`. -/
def portSetMannoTmo (p : PortIntervals) : Checked TimerValue := setTmoLog 1 p.logAnnounceInterval

/-- `port_set_qualification_tmo`. -/
def portSetQualificationTmo (p : PortIntervals) : Checked TimerValue :=
  setTmoLog (1 + p.stepsRemoved) p.logAnnounceInterval

/-- `port_set_sync_rx_tmo`. -/
def portSetSyncRxTmo (p : PortIntervals) : Checked TimerValue :=
  setTmoLog p.syncReceiptTimeout p.logSyncInterval

/-- `port_set_sync_tx_tmo`. -/
def portSetSyncTxTmo (p : PortIntervals) : Checked TimerValue := setTmoLog 1 p.logSyncInterval

/-! ## What is meant -/

/-- A number of seconds times a power of two, in nanoseconds. -/
def nanos (seconds log : Int) : ℚ := seconds * 10 ^ 9 * (2 : ℚ) ^ log

/-- A timer is set to a number of nanoseconds, in normal form, and nothing overflowed on the way. -/
structure Programs (x : Checked TimerValue) (ns : Int) : Prop where
  fits : x.fits = true
  seconds : 0 ≤ x.value.sec
  normalised : 0 ≤ x.value.nsec ∧ x.value.nsec < nsPerSec
  total : x.value.sec * nsPerSec + x.value.nsec = ns

/-- What `set_tmo_log` has room for. -/
structure LogFits (scale log : Int) : Prop where
  shift : log ≤ 30
  room : (scale : ℚ) * (2 : ℚ) ^ log < 2 ^ 32

/-- What `set_tmo_random` has room for before the random part. -/
structure Scaled (seconds log : Int) : Prop where
  low : -64 < log
  high : log < 64
  room : nanos seconds log < 2 ^ 63

/-- What `set_tmo_random` has room for. -/
structure RandomFits (min span log : Int) (random : Nat) : Prop where
  least : Scaled min log
  most : Scaled span log
  product : ⌊nanos span log⌋ * (random % 2 ^ 15 + 1 : Nat) < 2 ^ 64

section Nanos

variable {seconds : Int}

/-- For powers that are not negative the time is a whole number of nanoseconds. -/
theorem nanos_nat (exponent : Nat) :
    nanos seconds exponent = ((seconds * nsPerSec * 2 ^ exponent : Int) : ℚ) := by
  rw [nanos, zpow_natCast, nsPerSec]
  push_cast
  ring

/-- For negative powers the time is a number of nanoseconds, divided. -/
theorem nanos_neg (exponent : Nat) :
    nanos seconds (-exponent) = ((seconds * nsPerSec : Int) : ℚ) / ((2 ^ exponent : Nat) : ℚ) := by
  rw [nanos, zpow_neg, zpow_natCast, ← div_eq_mul_inv, nsPerSec]
  push_cast
  ring

/-- Nothing is cut off a whole number of nanoseconds. -/
theorem floor_nanos_nat (exponent : Nat) :
    ⌊nanos seconds exponent⌋ = seconds * nsPerSec * 2 ^ exponent := by
  rw [nanos_nat, Int.floor_intCast]

/-- What is cut off a quotient is what the division of integers cuts off. -/
theorem floor_nanos_neg (exponent : Nat) :
    ⌊nanos seconds (-exponent)⌋ = seconds * nsPerSec / 2 ^ exponent := by
  rw [nanos_neg, Rat.floor_intCast_div_natCast]
  push_cast
  rfl

/-- Seconds that are not negative make no negative time. -/
theorem nanos_nonneg (positive : 0 ≤ seconds) (log : Int) : 0 ≤ nanos seconds log := by
  have cast : (0 : ℚ) ≤ seconds := by exact_mod_cast positive
  rw [nanos]
  positivity

/-- Nor do they make a negative number of nanoseconds. -/
theorem floor_nanos_nonneg (positive : 0 ≤ seconds) (log : Int) : 0 ≤ ⌊nanos seconds log⌋ :=
  Int.floor_nonneg.mpr (nanos_nonneg positive log)

/-- The upper end of a random time is its lower end and the span. -/
theorem nanos_add (min span log : Int) : nanos (min + span) log = nanos min log + nanos span log := by
  simp only [nanos]
  push_cast
  ring

end Nanos

/-! ## The loops -/

/-- Halving again and again is one division: the rests that are cut off do not add up. -/
theorem halve_eq (times : Nat) (ns : Int) : halve times ns = ns / 2 ^ times := by
  induction times generalizing ns with
  | zero => simp [halve]
  | succ times inductionHypothesis =>
    rw [halve, Function.iterate_succ_apply]
    refine (inductionHypothesis (ns / 2)).trans ?_
    rw [Int.ediv_ediv_of_nonneg (by decide), pow_succ, Int.mul_comm]

/-- The loop that carries nanoseconds over to seconds is one division with its rest. -/
theorem normalise_eq {sec nsec : Int} (positive : 0 ≤ nsec) :
    normalise sec nsec = ⟨sec + nsec / nsPerSec, nsec % nsPerSec⟩ := by
  fun_induction normalise sec nsec with
  | case1 sec nsec large inductionHypothesis =>
    rw [inductionHypothesis (by omega)]
    simp only [nsPerSec] at large ⊢
    congr 1 <;> omega
  | case2 sec nsec small =>
    simp only [nsPerSec] at small ⊢
    congr 1 <;> omega

/-- Dividing by a second leaves a normal form. -/
theorem programs_of_is {x : Checked TimerValue} {ns : Int}
    (is : x.Is ⟨ns / nsPerSec, ns % nsPerSec⟩) (positive : 0 ≤ ns) : Programs x ns := by
  obtain ⟨value, fits⟩ := is
  refine ⟨fits, ?_, ?_, ?_⟩ <;> rw [value] <;> simp only [nsPerSec] <;> omega

/-! ## What is programmed -/

section Programmed

variable {scale min span log : Int} {random : Nat}

/-- Halving half a second first is the same as halving a second. -/
theorem floor_half (times : Nat) :
    ⌊nanos scale (-(times + 1 : Nat))⌋ = scale * 500000000 / 2 ^ times := by
  rw [floor_nanos_neg, pow_succ, nsPerSec, Nat.cast_ofNat]
  have twice : scale * 1000000000 = scale * 500000000 * 2 := by omega
  rw [twice, Int.mul_ediv_mul_of_pos_left _ _ (by decide)]

/-- For negative exponents the branch that halves: half a second first, then half of what there is
as often as is left. Nothing of it can overflow. -/
theorem setTmoLog_below (low : 0 ≤ scale) (high : scale < 2 ^ 32) (least : -128 ≤ log)
    (below : log < 0) : Programs (setTmoLog scale log) ⌊nanos scale log⌋ := by
  obtain ⟨times, rfl⟩ : ∃ times : Nat, log = -(times + 1 : Nat) := ⟨(-log - 1).toNat, by omega⟩
  have positive := floor_nanos_nonneg low (-(times + 1 : Nat))
  rw [floor_half] at positive ⊢
  have small : scale * 500000000 / 2 ^ times ≤ scale * 500000000 :=
    Int.ediv_le_self _ (by omega)
  refine programs_of_is ?_ positive
  rw [setTmoLog, if_pos below]
  refine is_bind (is_into ⟨?_, ?_⟩) (is_bind (is_into ⟨?_, ?_⟩) ?_)
  · show (-2 ^ 31 : Int) ≤ _; omega
  · show _ < (2 ^ 31 : Int); omega
  · show (0 : Int) ≤ _; omega
  · show _ < (2 ^ 64 : Int); omega
  have halved : (-((times + 1 : Nat) : Int) * -1 - 1).toNat = times := by omega
  rw [halved, halve_eq]
  refine is_bind (is_into ⟨?_, ?_⟩) ?_
  · show (-2 ^ 63 : Int) ≤ _; omega
  · show _ < (2 ^ 63 : Int); omega
  rw [normalise_eq positive, Int.zero_add]
  exact is_pure _

/-- The room that a number of seconds takes. -/
theorem room_nat (exponent : Nat) :
    (scale : ℚ) * (2 : ℚ) ^ (exponent : Int) < 2 ^ 32 ↔ scale * 2 ^ exponent < 2 ^ 32 := by
  rw [zpow_natCast]
  exact_mod_cast Iff.rfl

/-- A larger power of two. -/
theorem pow_le_of_le {exponent bound : Nat} (le : exponent ≤ bound) :
    (2 : Int) ^ exponent ≤ 2 ^ bound := pow_le_pow_right₀ (by decide) le

/-- The factor of `set_tmo_log`, of which the sign must be left alone. -/
theorem factor_is {exponent : Nat} (shift : exponent ≤ 30) :
    (shl int32 1 exponent).Is (2 ^ exponent) ∧ (into uint32 (2 ^ exponent)).Is (2 ^ exponent) := by
  have factor : (2 : Int) ^ exponent ≤ 2 ^ 30 := pow_le_of_le shift
  have positive : (0 : Int) < 2 ^ exponent := by positivity
  have value : (1 : Int) * 2 ^ (exponent : Int).toNat = 2 ^ exponent := by simp
  constructor
  · rw [← value]
    refine is_shl (by decide) (Int.natCast_nonneg exponent) ?_ ?_
    · show (exponent : Int) < (32 : Nat); omega
    rw [value]
    constructor
    · show (-2 ^ 31 : Int) ≤ _; omega
    · show _ < (2 ^ 31 : Int); omega
  · refine is_into ⟨positive.le, ?_⟩
    show _ < (2 ^ 32 : Int); omega

/-- For the others the branch that shifts, which is as exact as the result fits. -/
theorem setTmoLog_above (low : 0 ≤ scale) (above : 0 ≤ log) (fits : LogFits scale log) :
    Programs (setTmoLog scale log) ⌊nanos scale log⌋ := by
  obtain ⟨exponent, rfl⟩ := Int.eq_ofNat_of_zero_le above
  have room := (room_nat exponent).mp fits.room
  have positive : 0 ≤ scale * 2 ^ exponent := Int.mul_nonneg low (by positivity)
  have factor := factor_is (Int.ofNat_le.mp fits.shift)
  have is : (setTmoLog scale exponent).Is ⟨scale * 2 ^ exponent, 0⟩ := by
    rw [setTmoLog, if_neg (by omega)]
    exact is_bind factor.1 (is_bind factor.2 (is_bind (is_into ⟨positive, room⟩) (is_pure _)))
  obtain ⟨value, all⟩ := is
  refine ⟨all, ?_, ?_, ?_⟩ <;> rw [value]
  · exact positive
  · exact ⟨le_rfl, (by decide : (0 : Int) < nsPerSec)⟩
  · rw [floor_nanos_nat, nsPerSec]
    ring

/-- Where everything fits, `set_tmo_log` programs the interval, rounded down to a nanosecond. -/
theorem setTmoLog_programs (low : 0 ≤ scale) (high : scale < 2 ^ 32) (least : -128 ≤ log)
    (fits : LogFits scale log) : Programs (setTmoLog scale log) ⌊nanos scale log⌋ := by
  rcases lt_or_ge log 0 with below | above
  · exact setTmoLog_below low high least below
  · exact setTmoLog_above low above fits

/-- It has no more room than that. -/
theorem setTmoLog_fits (low : 0 ≤ scale) (high : scale < 2 ^ 32) (least : -128 ≤ log) :
    (setTmoLog scale log).fits = true ↔ LogFits scale log := by
  refine ⟨fun fits => ?_, fun fits => (setTmoLog_programs low high least fits).fits⟩
  rcases lt_or_ge log 0 with below | above
  · have shrinks : (2 : ℚ) ^ log ≤ 1 := zpow_le_one_of_nonpos₀ (by norm_num) below.le
    have cast : (scale : ℚ) < 2 ^ 32 := by exact_mod_cast high
    have positive : (0 : ℚ) ≤ scale := by exact_mod_cast low
    exact ⟨by omega, lt_of_le_of_lt (mul_le_of_le_one_right positive shrinks) cast⟩
  obtain ⟨exponent, rfl⟩ := Int.eq_ofNat_of_zero_le above
  rw [setTmoLog, if_neg (by omega)] at fits
  have shift : exponent ≤ 30 := by
    obtain ⟨-, -, -, -, small⟩ := fits_shl.mp (fits_first fits)
    have small : (1 : Int) * 2 ^ (exponent : Int).toNat < 2 ^ 31 := small
    rw [Int.one_mul, Int.toNat_natCast] at small
    have := (pow_lt_pow_iff_right₀ (by decide : (1 : Int) < 2)).mp small
    omega
  have factor := factor_is shift
  rw [fits_rest factor.1, fits_rest factor.2] at fits
  exact ⟨by omega, (room_nat exponent).mpr (fits_into.mp (fits_first fits)).2⟩

/-! ### The random part -/

/-- As many seconds as an int can hold fit into 64 bits in nanoseconds. -/
theorem unit_holds {seconds : Int} (positive : 0 ≤ seconds) (small : seconds < 2 ^ 31) :
    int64.Holds (seconds * nsPerSec) := by
  constructor
  · show (-2 ^ 63 : Int) ≤ _; rw [nsPerSec]; omega
  · show _ < (2 ^ 63 : Int); rw [nsPerSec]; omega

/-- The time that the random branch computes for its ends, if they fit. -/
theorem scaledNs_is {seconds : Int} (positive : 0 ≤ seconds) (small : seconds < 2 ^ 31)
    (scaled : Scaled seconds log) : (scaledNs seconds log).Is ⌊nanos seconds log⌋ := by
  have floor_positive := floor_nanos_nonneg positive log
  have floor_small : ⌊nanos seconds log⌋ < 2 ^ 63 := by
    rw [Int.floor_lt]
    exact_mod_cast scaled.room
  have low := scaled.low
  have high := scaled.high
  have last : (into uint64 ⌊nanos seconds log⌋).Is ⌊nanos seconds log⌋ := by
    refine is_into ⟨floor_positive, ?_⟩
    show _ < (2 ^ 64 : Int); omega
  refine is_bind (is_into (unit_holds positive small)) ?_
  rcases lt_or_ge log 0 with below | above
  · obtain ⟨exponent, rfl⟩ : ∃ exponent : Nat, log = -exponent := ⟨(-log).toNat, by omega⟩
    simp only [ge_iff_le, if_neg (not_le.mpr below)]
    refine is_bind ?_ last
    rw [floor_nanos_neg, neg_neg]
    refine is_shr ?_ ?_ ?_
    · rw [nsPerSec]; omega
    · omega
    · show (exponent : Int) < (64 : Nat); omega
  · obtain ⟨exponent, rfl⟩ := Int.eq_ofNat_of_zero_le above
    simp only [ge_iff_le, if_pos above]
    refine is_bind ?_ last
    rw [floor_nanos_nat] at *
    refine is_shl ?_ above ?_ ⟨?_, floor_small⟩
    · rw [nsPerSec]; omega
    · show (exponent : Int) < (64 : Nat); omega
    · exact le_trans (by decide : (-2 ^ 63 : Int) ≤ 0) floor_positive

/-- It has no more room than that. -/
theorem scaledNs_fits {seconds : Int} (positive : 0 ≤ seconds) (small : seconds < 2 ^ 31) :
    (scaledNs seconds log).fits = true ↔ Scaled seconds log := by
  refine ⟨fun fits => ?_, fun scaled => (scaledNs_is positive small scaled).2⟩
  rw [scaledNs, fits_rest (is_into (unit_holds positive small))] at fits
  rcases lt_or_ge log 0 with below | above
  · simp only [ge_iff_le, if_neg (not_le.mpr below)] at fits
    obtain ⟨-, -, high⟩ := fits_shr.mp (fits_first fits)
    have high : -log < (64 : Nat) := high
    refine ⟨by omega, by omega, ?_⟩
    have shrinks : (2 : ℚ) ^ log ≤ 1 := zpow_le_one_of_nonpos₀ (by norm_num) below.le
    have cast : (seconds : ℚ) < 2 ^ 31 := by exact_mod_cast small
    have cast_positive : (0 : ℚ) ≤ seconds := by exact_mod_cast positive
    calc nanos seconds log ≤ seconds * 10 ^ 9 := mul_le_of_le_one_right (by positivity) shrinks
      _ < 2 ^ 63 := by linarith
  · simp only [ge_iff_le, if_pos above] at fits
    obtain ⟨exponent, rfl⟩ := Int.eq_ofNat_of_zero_le above
    obtain ⟨-, -, high, -, room⟩ := fits_shl.mp (fits_first fits)
    have high : (exponent : Int) < (64 : Nat) := high
    have room : seconds * nsPerSec * 2 ^ (exponent : Int).toNat < 2 ^ 63 := room
    refine ⟨by omega, by omega, ?_⟩
    rw [nanos_nat]
    exact_mod_cast room

/-- What `set_tmo_random` is to program. -/
def randomNs (min span log : Int) (random : Nat) : Int :=
  ⌊nanos min log⌋ + ⌊nanos span log⌋ * (random % 2 ^ 15 + 1 : Nat) / 2 ^ 15

/-- The random part is at most the span. -/
theorem random_part_le (positive : 0 ≤ span) :
    ⌊nanos span log⌋ * (random % 2 ^ 15 + 1 : Nat) / 2 ^ 15 ≤ ⌊nanos span log⌋ := by
  have part : ((random % 2 ^ 15 + 1 : Nat) : Int) ≤ 2 ^ 15 := by omega
  have product := Int.mul_le_mul_of_nonneg_left part (floor_nanos_nonneg positive log)
  omega

/-- A random time is not before its lower end, rounded down. -/
theorem randomNs_least (positive : 0 ≤ span) : ⌊nanos min log⌋ ≤ randomNs min span log random := by
  have product : 0 ≤ ⌊nanos span log⌋ * (random % 2 ^ 15 + 1 : Nat) :=
    Int.mul_nonneg (floor_nanos_nonneg positive log) (by omega)
  rw [randomNs]
  omega

/-- A random time is not behind its upper end. -/
theorem randomNs_most (positive : 0 ≤ span) :
    (randomNs min span log random : ℚ) ≤ nanos (min + span) log := by
  have sum : randomNs min span log random ≤ ⌊nanos min log⌋ + ⌊nanos span log⌋ :=
    Int.add_le_add_left (random_part_le positive) _
  calc (randomNs min span log random : ℚ) ≤ ⌊nanos min log⌋ + ⌊nanos span log⌋ := by
        exact_mod_cast sum
    _ ≤ nanos min log + nanos span log := add_le_add (Int.floor_le _) (Int.floor_le _)
    _ = nanos (min + span) log := (nanos_add min span log).symm

/-- It is not zero if the least interval has a nanosecond, or the span has one for every value of
the random part. -/
theorem randomNs_positive (low : 0 ≤ min) (positive : 0 ≤ span)
    (large : 1 ≤ nanos min log ∨ 2 ^ 15 ≤ nanos span log) : 0 < randomNs min span log random := by
  rcases large with least | most
  · have : (1 : Int) ≤ ⌊nanos min log⌋ := Int.le_floor.mpr (by exact_mod_cast least)
    have : ⌊nanos min log⌋ ≤ randomNs min span log random := randomNs_least positive
    omega
  · have span_large : (2 : Int) ^ 15 ≤ ⌊nanos span log⌋ := Int.le_floor.mpr (by exact_mod_cast most)
    have least := floor_nanos_nonneg low log
    have product : (2 : Int) ^ 15 * 1 ≤ ⌊nanos span log⌋ * (random % 2 ^ 15 + 1 : Nat) :=
      Int.mul_le_mul span_large (by omega) (by decide) (by omega)
    rw [randomNs]
    omega

/-- Where everything fits, `set_tmo_random` programs that. -/
theorem setTmoRandom_programs (low : 0 ≤ min) (high : min < 2 ^ 31) (positive : 0 ≤ span)
    (small : span < 2 ^ 31) (fits : RandomFits min span log random) :
    Programs (setTmoRandom min span log random) (randomNs min span log random) := by
  have least := floor_nanos_nonneg low log
  have most := floor_nanos_nonneg positive log
  have product : 0 ≤ ⌊nanos span log⌋ * (random % 2 ^ 15 + 1 : Nat) :=
    Int.mul_nonneg most (by omega)
  have bounded : ⌊nanos span log⌋ * (random % 2 ^ 15 + 1 : Nat) / 2 ^ 15 ≤ ⌊nanos span log⌋ :=
    random_part_le positive
  have least_room : ⌊nanos min log⌋ < 2 ^ 63 := Int.floor_lt.mpr (by exact_mod_cast fits.least.room)
  have most_room : ⌊nanos span log⌋ < 2 ^ 63 := Int.floor_lt.mpr (by exact_mod_cast fits.most.room)
  refine programs_of_is ?_ (least.trans (randomNs_least positive))
  refine is_bind (scaledNs_is low high fits.least) (is_bind (scaledNs_is positive small fits.most) ?_)
  refine is_bind (is_into ⟨product, fits.product⟩) (is_bind (is_shr product (by decide) (by decide)) ?_)
  refine is_bind (is_into ⟨?_, ?_⟩) (is_pure _)
  · show (0 : Int) ≤ _ + _ / 2 ^ 15; omega
  · show _ + _ / 2 ^ 15 < (2 ^ 64 : Int); omega

/-- It has no more room than that. -/
theorem setTmoRandom_fits (low : 0 ≤ min) (high : min < 2 ^ 31) (positive : 0 ≤ span)
    (small : span < 2 ^ 31) :
    (setTmoRandom min span log random).fits = true ↔ RandomFits min span log random := by
  refine ⟨fun fits => ?_, fun fits => (setTmoRandom_programs low high positive small fits).fits⟩
  have least := (scaledNs_fits low high).mp (fits_first fits)
  rw [setTmoRandom, fits_rest (scaledNs_is low high least)] at fits
  have most := (scaledNs_fits positive small).mp (fits_first fits)
  rw [fits_rest (scaledNs_is positive small most)] at fits
  exact ⟨least, most, (fits_into.mp (fits_first fits)).2⟩


end Programmed

/-! ## Timers that are set -/

section Armed

variable {x : Checked TimerValue} {ns : Int}

/-- Zero is programmed for zero only. -/
theorem Programs.zero_iff (programs : Programs x ns) : x.value = ⟨0, 0⟩ ↔ ns = 0 := by
  obtain ⟨-, seconds, ⟨positive, -⟩, total⟩ := programs
  constructor
  · intro zero
    rw [← total, zero]
    rfl
  · rintro rfl
    simp only [nsPerSec] at total
    have noSeconds : x.value.sec = 0 := by omega
    have nothing : x.value.nsec = 0 := by omega
    exact (congrArg₂ TimerValue.mk noSeconds nothing : x.value = ⟨0, 0⟩)

/-- A timer that is programmed with a time is armed. -/
theorem Programs.armed (programs : Programs x ns) (positive : 0 < ns) : x.value ≠ ⟨0, 0⟩ := by
  rw [ne_eq, programs.zero_iff]
  omega

/-- No seconds are no time. -/
theorem nanos_zero (log : Int) : nanos 0 log = 0 := by simp [nanos]

end Armed

/-- Where everything fits, both functions program what is meant, rounded down to a nanosecond and in
normal form. A scale of zero disarms the timer.

Proof: halving step by step cuts off no more than one division does, and shifts are exact as long as
they fit. Carrying nanoseconds over to seconds keeps the total and ends in normal form. -/
theorem timeouts_programmed (log : Int) (least : -128 ≤ log) :
    (∀ scale : Int, 0 ≤ scale → scale < 2 ^ 32 → LogFits scale log →
      Programs (setTmoLog scale log) ⌊nanos scale log⌋ ∧
      (scale = 0 → (setTmoLog scale log).value = ⟨0, 0⟩) ∧
      (1 ≤ nanos scale log → (setTmoLog scale log).value ≠ ⟨0, 0⟩)) ∧
    ∀ (min span : Int) (random : Nat), 0 ≤ min → min < 2 ^ 31 → 0 ≤ span → span < 2 ^ 31 →
      RandomFits min span log random →
      ∃ ns : Int, Programs (setTmoRandom min span log random) ns ∧
        ⌊nanos min log⌋ ≤ ns ∧ (ns : ℚ) ≤ nanos (min + span) log ∧
        (1 ≤ nanos min log ∨ 2 ^ 15 ≤ nanos span log →
          (setTmoRandom min span log random).value ≠ ⟨0, 0⟩) := by
  constructor
  · intro scale low high fits
    have programs := setTmoLog_programs low high least fits
    refine ⟨programs, ?_, fun large => ?_⟩
    · rintro rfl
      rw [programs.zero_iff, nanos_zero, Int.floor_zero]
    · have one : (1 : Int) ≤ ⌊nanos scale log⌋ := Int.le_floor.mpr (by exact_mod_cast large)
      exact programs.armed (by omega)
  · intro min span random low high positive small fits
    have programs := setTmoRandom_programs low high positive small fits
    exact ⟨_, programs, randomNs_least positive, randomNs_most positive,
      fun large => programs.armed (randomNs_positive low positive large)⟩

/-- An interval of half a second and a random one of a second. -/
theorem timeouts_programmed_daily :
    Programs (setTmoLog 3 (-1)) ⌊nanos 3 (-1)⌋ ∧
      ∃ ns : Int, Programs (setTmoRandom 3 1 1 0) ns := by
  have fits : LogFits 3 (-1) := ⟨by decide, by norm_num⟩
  have random : RandomFits 3 1 1 0 := by
    refine ⟨⟨by decide, by decide, ?_⟩, ⟨by decide, by decide, ?_⟩, ?_⟩
    · norm_num [nanos]
    · norm_num [nanos]
    · have : (⌊nanos 1 1⌋ : Int) = 2000000000 := by
        rw [show (1 : Int) = ((1 : Nat) : Int) from rfl, floor_nanos_nat]
        decide
      rw [this]
      decide
  obtain ⟨programs, -, -⟩ := (timeouts_programmed (-1) (by decide)).1 3 (by decide) (by decide) fits
  obtain ⟨ns, also, -⟩ := (timeouts_programmed 1 (by decide)).2 3 1 0 (by decide) (by decide)
    (by decide) (by decide) random
  exact ⟨programs, ns, also⟩

/-- The default leaves the receipt of Syncs without a timeout, a delay interval that
`process_delay_resp` takes over does not fit, and a random timeout can be less than the least
interval by a part of a nanosecond. -/
theorem timeouts_not_exact :
    (portSetSyncRxTmo .defaults).value = ⟨0, 0⟩ ∧
    (portSetDelayTmo { PortIntervals.defaults with logMinDelayReqInterval := 22 } 32767).fits =
      false ∧
    (setTmoRandom 3 0 (-10) 0).value = ⟨0, 2929687⟩ ∧ (2929687 : ℚ) < nanos 3 (-10) := by
  refine ⟨by decide, by decide, by decide, ?_⟩
  norm_num [nanos]

/-! ## The timers of a port -/

section Ports

variable {p : PortIntervals} {scale min span log : Int} {random : Nat}

/-- An exponent for which every timer of a port has room. -/
def Moderate (log : Int) : Prop := -10 ≤ log ∧ log ≤ 18

/-- What the configuration admits, with a timeout for the receipt of Syncs, moderate intervals and
the customary bound on the steps to the grandmaster. -/
structure Ordinary (p : PortIntervals) : Prop where
  announceReceiptTimeout : 2 ≤ p.announceReceiptTimeout ∧ p.announceReceiptTimeout ≤ 255
  announceSpan : 0 ≤ p.announceSpan ∧ p.announceSpan ≤ 1
  syncReceiptTimeout : 1 ≤ p.syncReceiptTimeout ∧ p.syncReceiptTimeout ≤ 255
  stepsRemoved : 0 ≤ p.stepsRemoved ∧ p.stepsRemoved ≤ 255
  logAnnounceInterval : Moderate p.logAnnounceInterval
  logSyncInterval : Moderate p.logSyncInterval
  logMinDelayReqInterval : Moderate p.logMinDelayReqInterval
  logMinPdelayReqInterval : Moderate p.logMinPdelayReqInterval

/-- A timer is set to a number of nanoseconds that is not zero. -/
def Armed (x : Checked TimerValue) : Prop := ∃ ns : Int, 0 < ns ∧ Programs x ns

/-- The intervals that a configuration allows, in seconds. -/
theorem moderate_pow (moderate : Moderate log) :
    1 / 1024 ≤ (2 : ℚ) ^ log ∧ (2 : ℚ) ^ log ≤ 262144 := by
  have least : (2 : ℚ) ^ (-10 : Int) ≤ 2 ^ log := zpow_le_zpow_right₀ (by norm_num) moderate.1
  have most : (2 : ℚ) ^ log ≤ 2 ^ (18 : Int) := zpow_le_zpow_right₀ (by norm_num) moderate.2
  norm_num at least most
  exact ⟨by norm_num; exact least, most⟩

/-- Bounds on the seconds bound the nanoseconds. -/
theorem moderate_nanos {seconds bound : Int} (moderate : Moderate log) (low : 0 ≤ seconds)
    (high : seconds ≤ bound) :
    (seconds : ℚ) * 10 ^ 9 / 1024 ≤ nanos seconds log ∧
      nanos seconds log ≤ bound * 10 ^ 9 * 262144 := by
  obtain ⟨least, most⟩ := moderate_pow moderate
  have positive : (0 : ℚ) ≤ seconds := by exact_mod_cast low
  have bounded : (seconds : ℚ) ≤ bound := by exact_mod_cast high
  constructor
  · calc (seconds : ℚ) * 10 ^ 9 / 1024 = seconds * 10 ^ 9 * (1 / 1024) := by ring
      _ ≤ nanos seconds log := mul_le_mul_of_nonneg_left least (by positivity)
  · exact mul_le_mul (by linarith) most (by positivity) (by linarith)

/-- Such an interval is never rounded down to nothing. -/
theorem setTmoLog_armed (low : 1 ≤ scale) (high : scale ≤ 256) (moderate : Moderate log) :
    Armed (setTmoLog scale log) := by
  have room : (scale : ℚ) * (2 : ℚ) ^ log < 2 ^ 32 := by
    have bounded : (scale : ℚ) ≤ 256 := by exact_mod_cast high
    calc (scale : ℚ) * (2 : ℚ) ^ log ≤ 256 * 262144 :=
          mul_le_mul bounded (moderate_pow moderate).2 (by positivity) (by norm_num)
      _ < 2 ^ 32 := by norm_num
  obtain ⟨least, most⟩ := moderate
  have fits : LogFits scale log := ⟨by omega, room⟩
  refine ⟨_, ?_, setTmoLog_programs (by omega) (by omega) (by omega) fits⟩
  have bounds := (moderate_nanos ⟨least, most⟩ (by omega) high).1
  have one : (1 : ℚ) ≤ scale := by exact_mod_cast low
  have large : (1 : ℚ) ≤ nanos scale log := by linarith
  have floor : (1 : Int) ≤ ⌊nanos scale log⌋ := Int.le_floor.mpr (by exact_mod_cast large)
  omega

/-- Such an interval fits, for each number of seconds that an option can multiply it by. -/
theorem scaled_of_moderate {seconds : Int} (low : 0 ≤ seconds) (high : seconds ≤ 255)
    (moderate : Moderate log) : Scaled seconds log := by
  have bounds := (moderate_nanos moderate low high).2
  obtain ⟨least, most⟩ := moderate
  refine ⟨by omega, by omega, bounds.trans_lt ?_⟩
  norm_num

/-- A random interval of that kind is not rounded down to nothing either. -/
theorem setTmoRandom_armed (low : 0 ≤ min) (high : min ≤ 255) (positive : 0 ≤ span)
    (small : span ≤ 2) (either : 1 ≤ min ∨ 1 ≤ span) (moderate : Moderate log) :
    Armed (setTmoRandom min span log random) := by
  have bounds := (moderate_nanos moderate positive small).2
  have product : ⌊nanos span log⌋ * (random % 2 ^ 15 + 1 : Nat) < 2 ^ 64 := by
    have floor : ⌊nanos span log⌋ ≤ 524288000000000 := by
      refine Int.floor_le_iff.mpr (bounds.trans_lt ?_)
      norm_num
    have part : ((random % 2 ^ 15 + 1 : Nat) : Int) ≤ 2 ^ 15 := by omega
    calc ⌊nanos span log⌋ * (random % 2 ^ 15 + 1 : Nat) ≤ 524288000000000 * 2 ^ 15 :=
          Int.mul_le_mul floor part (by omega) (by decide)
      _ < 2 ^ 64 := by decide
  have fits : RandomFits min span log random :=
    ⟨scaled_of_moderate low high moderate, scaled_of_moderate positive (by omega) moderate, product⟩
  refine ⟨_, randomNs_positive low positive ?_,
    setTmoRandom_programs low (by omega) positive (by omega) fits⟩
  rcases either with one | one
  · have bounds := (moderate_nanos moderate low high).1
    have cast : (1 : ℚ) ≤ min := by exact_mod_cast one
    left
    linarith
  · have bounds := (moderate_nanos moderate positive small).1
    have cast : (1 : ℚ) ≤ span := by exact_mod_cast one
    right
    linarith

/-- An ordinary port never disarms a timer that it sets. -/
theorem ordinary_armed (ordinary : Ordinary p) (random : Nat) :
    Armed (portSetAnnounceTmo p random) ∧ Armed (portSetDelayTmo p random) ∧
      Armed (portSetPdelayTmo p) ∧ Armed (portSetMannoTmo p) ∧
      Armed (portSetQualificationTmo p) ∧ Armed (portSetSyncRxTmo p) ∧
      Armed (portSetSyncTxTmo p) := by
  obtain ⟨⟨atLeastTwo, announce⟩, ⟨span, oneAtMost⟩, ⟨enabled, sync⟩, ⟨near, steps⟩, logAnnounce,
    logSync, logDelay, logPdelay⟩ := ordinary
  refine ⟨?_, ?_, ?_, ?_, ?_, ?_, ?_⟩
  · exact setTmoRandom_armed (by omega) announce span (by omega) (.inl (by omega)) logAnnounce
  · exact setTmoRandom_armed (by decide) (by decide) (by decide) (by decide) (.inr (by decide))
      logDelay
  · exact setTmoLog_armed (by decide) (by decide) logPdelay
  · exact setTmoLog_armed (by decide) (by decide) logAnnounce
  · exact setTmoLog_armed (by omega) (by omega) logAnnounce
  · exact setTmoLog_armed enabled (by omega) logSync
  · exact setTmoLog_armed (by decide) (by decide) logSync

end Ports

end LinuxPtp.Timeouts
