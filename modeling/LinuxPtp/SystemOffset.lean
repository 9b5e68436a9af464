import LinuxPtp.ShiftInsertion
import LinuxPtp.Tmv

/-!
# The offset between a PHC and the system clock

A measurement reads the system clock and the PHC in turn. Each PHC reading between two readings of
the system clock is a sample, and the sample of the shortest interval is the estimate. The samples
are sorted in one array, which is left as it is for the next measurement.
-/

namespace LinuxPtp.SystemOffset

open Tmv

/-! ## The code (`sysoff.c`) -/

/-- `struct ptp_clock_time`. -/
structure PtpClockTime where
  sec : Int
  nsec : Nat

/-- `pctns`. -/
def pctns (t : PtpClockTime) : Int := int64 (int64 (t.sec * 1000000000) + t.nsec)

/-- An element of `samples`. -/
structure Sample where
  interval : Int
  offset : Int
  timestamp : Nat

/-- The array `samples`, of `PTP_MAX_SAMPLES` elements. -/
structure Samples (ptpMaxSamples : Nat) where
  cells : List Sample
  size : cells.length = ptpMaxSamples

section Code

variable {ptpMaxSamples n : Nat}

/-- `insertion_sort`. -/
def insertionSort (length : Nat) (new : Sample) (samples : Samples ptpMaxSamples) :
    Samples ptpMaxSamples where
  cells := ShiftInsertion.insert (fun other => other.interval < new.interval) new length
    samples.cells
  size := (ShiftInsertion.length_insert length samples.cells).trans samples.size

/-- What `sysoff_estimate` computes from three readings that follow each other. -/
def sampleOf (pct : Fin (2 * n + 1) → PtpClockTime) (i : Fin n) : Sample :=
  let t1 := pctns (pct ⟨2 * i, by omega⟩)
  let tp := pctns (pct ⟨2 * i + 1, by omega⟩)
  let t2 := pctns (pct ⟨2 * i + 2, by omega⟩)
  let middle := (int64 (t2 + t1)).tdiv 2
  { interval := int64 (t2 - t1), offset := int64 (middle - tp),
    timestamp := (middle % 2 ^ 64).toNat }

/-- The loop of `sysoff_estimate` from a sample on. -/
def sortFrom : Nat → List Sample → Samples ptpMaxSamples → Samples ptpMaxSamples
  | _, [], samples => samples
  | i, new :: rest, samples => sortFrom (i + 1) rest (insertionSort i new samples)

/-- What `sysoff_estimate` returns. -/
structure Estimate where
  offset : Int
  ts : Nat
  delay : Int
deriving DecidableEq

/-- `sysoff_estimate`, with the array that it leaves. -/
def sysoffEstimate (pct : Fin (2 * n + 1) → PtpClockTime) (samples : Samples ptpMaxSamples)
    (room : 0 < ptpMaxSamples) : Estimate × Samples ptpMaxSamples :=
  let samples := sortFrom 0 ((List.finRange n).map (sampleOf pct)) samples
  let first := samples.cells.get ⟨0, by rw [samples.size]; exact room⟩
  (⟨first.offset, first.timestamp, first.interval⟩, samples)

end Code

/-! ## What is sorted -/

section Sorted

variable {ptpMaxSamples n : Nat}

/-- The array begins with samples in the order of their intervals. -/
structure Begins (samples : Samples ptpMaxSamples) (sorted : List Sample) : Prop where
  ordered : sorted.Pairwise fun left right => left.interval ≤ right.interval
  initial : ∃ rest, samples.cells = sorted ++ rest

/-- A sample more. -/
theorem insertionSort_begins {samples : Samples ptpMaxSamples} {sorted : List Sample}
    (begins : Begins samples sorted) (room : sorted.length < ptpMaxSamples) (new : Sample) :
    ∃ longer, Begins (insertionSort sorted.length new samples) longer ∧
      longer.Perm (new :: sorted) := by
  obtain ⟨ordered, rest, initial⟩ := begins
  have sizes : sorted.length + rest.length = ptpMaxSamples := by
    rw [← samples.size, initial, List.length_append]
  obtain _ | ⟨free, rest⟩ := rest
  · simp only [List.length_nil] at sizes
    omega
  obtain ⟨before, after, splits, inserted⟩ :=
    ShiftInsertion.insert_splits (fun other => decide (other.interval < new.interval)) new sorted
      free rest
  refine ⟨before ++ new :: after, ⟨?_, rest, ?_⟩, splits.perm⟩
  · refine splits.ordered Int.le_trans (fun other _ stays => ?_) (fun other _ moves => ?_) ordered
    · exact Int.le_of_lt (of_decide_eq_true stays)
    · exact Int.not_lt.mp (of_decide_eq_false moves)
  · rw [← inserted, ← initial]
    rfl

/-- All that are left. -/
theorem sortFrom_begins {samples : Samples ptpMaxSamples} {sorted : List Sample}
    (begins : Begins samples sorted) (news : List Sample)
    (room : sorted.length + news.length ≤ ptpMaxSamples) :
    ∃ longer, Begins (sortFrom sorted.length news samples) longer ∧
      longer.Perm (sorted ++ news) := by
  induction news generalizing samples sorted with
  | nil => exact ⟨sorted, begins, by rw [List.append_nil]⟩
  | cons new rest inductionHypothesis =>
    rw [List.length_cons] at room
    obtain ⟨next, after, same⟩ := insertionSort_begins begins (by omega) new
    have count : next.length = sorted.length + 1 := by rw [same.length_eq, List.length_cons]
    obtain ⟨longer, final, all⟩ := inductionHypothesis after (by omega)
    rw [count] at final
    exact ⟨longer, final, all.trans ((same.append_right rest).trans List.perm_middle.symm)⟩

end Sorted

/-- Offset, time stamp and delay are those of one sample, and none has a shorter interval.

Proof: the samples are inserted one after the other into an array that is sorted by their intervals,
so in the end the first is one of them with the shortest interval. -/
theorem estimate_consistent {ptpMaxSamples n : Nat} (pct : Fin (2 * n + 1) → PtpClockTime)
    (samples : Samples ptpMaxSamples) (some : 1 ≤ n) (fits : n ≤ ptpMaxSamples) :
    ∃ i : Fin n,
      (sysoffEstimate pct samples (Nat.lt_of_lt_of_le some fits)).1 =
        ⟨(sampleOf pct i).offset, (sampleOf pct i).timestamp, (sampleOf pct i).interval⟩ ∧
      ∀ j : Fin n, (sampleOf pct i).interval ≤ (sampleOf pct j).interval := by
  have count : ((List.finRange n).map (sampleOf pct)).length = n := by simp
  obtain ⟨sorted, ⟨ordered, rest, initial⟩, same⟩ :=
    @sortFrom_begins ptpMaxSamples samples [] ⟨.nil, samples.cells, rfl⟩
      ((List.finRange n).map (sampleOf pct)) (by rw [count, List.length_nil]; omega)
  rw [List.nil_append] at same
  obtain _ | ⟨first, others⟩ := sorted
  · rw [← same.length_eq, List.length_nil] at count
    omega
  obtain ⟨i, -, mine⟩ := List.mem_map.mp (same.mem_iff.mp List.mem_cons_self)
  refine ⟨i, ?_, fun j => ?_⟩
  · rw [sysoffEstimate, mine]
    simp only [List.length_nil] at initial
    simp [initial]
  · have member : sampleOf pct j ∈ first :: others :=
      same.mem_iff.mpr (List.mem_map_of_mem (List.mem_finRange j))
    rw [mine]
    rcases List.mem_cons.mp member with here | later
    · exact Int.le_of_eq (congrArg Sample.interval here).symm
    · exact (List.pairwise_cons.mp ordered).1 _ later

/-- Two samples, the second of which took less time. -/
def twoSamples : Fin (2 * 2 + 1) → PtpClockTime
  | 0 => ⟨10, 0⟩
  | 1 => ⟨10, 100⟩
  | 2 => ⟨10, 900⟩
  | 3 => ⟨10, 1000⟩
  | 4 => ⟨10, 1300⟩

/-- An array that holds nothing yet. -/
def noSamples : Samples 25 := ⟨List.replicate 25 ⟨0, 0, 0⟩, List.length_replicate⟩

theorem estimate_consistent_two :
    ∃ i : Fin 2,
      (sysoffEstimate twoSamples noSamples (by decide)).1 =
        ⟨(sampleOf twoSamples i).offset, (sampleOf twoSamples i).timestamp,
          (sampleOf twoSamples i).interval⟩ ∧
      ∀ j : Fin 2, (sampleOf twoSamples i).interval ≤ (sampleOf twoSamples j).interval :=
  estimate_consistent twoSamples noSamples (by decide) (by decide)

example : (sysoffEstimate twoSamples noSamples (by decide)).1 = ⟨100, 10000001100, 400⟩ := by
  decide +kernel

end LinuxPtp.SystemOffset
