import LinuxPtp.ClockState
import LinuxPtp.Filters
import LinuxPtp.MovingMedian
import LinuxPtp.Tmv

/-!
# The time stamp processor

It takes the times of a message down from the master and of one up to it, computes a delay from
both that it filters, and from the delay and the message down an offset. Only the product with a
ratio of two clocks, which the code computes with floating point numbers, is left open.
-/

namespace LinuxPtp.TimestampProcessor

open Tmv Filters

/-- `struct filter`. -/
inductive Filter where
  | movingAverage (m : Mave)
  | movingMedian (m : Mmedian)

/-- `enum filter_type`. -/
inductive FilterType where
  | movingAverage
  | movingMedian

/-- `filter_create`. The code has room for a moving average of any length from one on. -/
def filterCreate (type : FilterType) (length : Int) : Option Filter :=
  match type with
  | .movingAverage => some (.movingAverage (maveCreate length.toNat))
  | .movingMedian => (mmedianCreate length).map .movingMedian

/-- `filter_sample`. -/
def filterSample : Filter → Int → Int × Filter
  | .movingAverage m, sample =>
    let (filtered, m) := maveAccumulate m sample
    (filtered, .movingAverage m)
  | .movingMedian m, sample =>
    let (filtered, m) := mmedianSample m sample
    (filtered, .movingMedian m)

/-- `filter_reset`. -/
def filterReset : Filter → Filter
  | .movingAverage m => .movingAverage (maveReset m)
  | .movingMedian m => .movingMedian (mmedianReset m)

/-- `struct tsproc`. The ratio of the clocks is what a time becomes when it is scaled by it, or
nothing for a ratio of one. -/
structure Tsproc where
  mode : TsprocMode
  clockRateRatio : Option (Int → Int)
  t1 : Int
  t2 : Int
  t3 : Int
  t4 : Int
  filteredDelay : Int
  filteredDelayValid : Bool
  delayFilter : Filter

/-- `tsproc_create`. -/
def tsprocCreate (mode : TsprocMode) (delayFilter : Filter) : Tsproc where
  mode := mode
  clockRateRatio := none
  t1 := 0
  t2 := 0
  t3 := 0
  t4 := 0
  filteredDelay := 0
  filteredDelayValid := false
  delayFilter := delayFilter

/-- `tsproc_down_ts`. -/
def tsprocDownTs (remoteTs localTs : Int) (tsp : Tsproc) : Tsproc :=
  { tsp with t1 := remoteTs, t2 := localTs }

/-- `tsproc_up_ts`. -/
def tsprocUpTs (localTs remoteTs : Int) (tsp : Tsproc) : Tsproc :=
  { tsp with t3 := localTs, t4 := remoteTs }

/-- `tsproc_set_clock_rate_ratio`. -/
def tsprocSetClockRateRatio (clockRateRatio : Option (Int → Int)) (tsp : Tsproc) : Tsproc :=
  { tsp with clockRateRatio := clockRateRatio }

/-- `tsproc_set_delay`. -/
def tsprocSetDelay (delay : Int) (tsp : Tsproc) : Tsproc :=
  { tsp with filteredDelay := delay, filteredDelayValid := true }

/-- `get_raw_delay`. -/
def getRawDelay (tsp : Tsproc) : Int :=
  let t23 := tmvSub tsp.t2 tsp.t3
  let t23 := match tsp.clockRateRatio with
    | some scaled => scaled t23
    | none => t23
  let t41 := tmvSub tsp.t4 tsp.t1
  tmvDiv (tmvAdd t23 t41) 2

/-- `tsproc_update_delay`: the delay, when there is one. -/
def tsprocUpdateDelay (tsp : Tsproc) : Option (Int × Tsproc) :=
  if tsp.t2 = 0 ∨ tsp.t3 = 0 then none
  else
    let rawDelay := getRawDelay tsp
    let (filteredDelay, delayFilter) := filterSample tsp.delayFilter rawDelay
    let delay := match tsp.mode with
      | .filter | .filterWeight => filteredDelay
      | .raw | .rawWeight => rawDelay
    some (delay, { tsp with filteredDelay, filteredDelayValid := true, delayFilter })

/-- `tsproc_update_offset`: the offset, when there is one. The weight that goes with it is for the
servo only. -/
def tsprocUpdateOffset (tsp : Tsproc) : Option Int :=
  if tsp.t1 = 0 ∨ tsp.t2 = 0 then none
  else
    let delay := match tsp.mode with
      | .filter => if tsp.filteredDelayValid then some tsp.filteredDelay else none
      | .raw | .rawWeight => if tsp.t3 = 0 then none else some (getRawDelay tsp)
      | .filterWeight =>
        if tsp.t3 = 0 ∨ !tsp.filteredDelayValid then none else some tsp.filteredDelay
    delay.map fun delay => tmvSub (tmvSub tsp.t2 tsp.t1) delay

/-- `tsproc_reset`. -/
def tsprocReset (full : Bool) (tsp : Tsproc) : Tsproc :=
  let tsp := { tsp with t1 := 0, t2 := 0, t3 := 0, t4 := 0 }
  if full then
    { tsp with
      clockRateRatio := none
      delayFilter := filterReset tsp.delayFilter
      filteredDelayValid := false }
  else tsp

end LinuxPtp.TimestampProcessor
