import LinuxPtp.PortDispatch
import LinuxPtp.Tmv

/-!
# Time stamps and synchronisation

The time stamp processor of `tsproc.c`, the handling of leap seconds in `util.c`, and the
functions of `clock.c` that use them. Filtered delays, offsets and the servo are computed in
floating point and are supplied; what decides whether they are computed is kept.
-/

namespace LinuxPtp

open Tmv

/-- `NS_PER_HOUR`. -/
def nsPerHour : Nat := 3600 * nsPerSec

/-- `NS_PER_DAY`. -/
def nsPerDay : Nat := 24 * nsPerHour

/-- `LEAP_61`. -/
def leap61 : UInt8 := 1

/-- `LEAP_59`. -/
def leap59 : UInt8 := 2

/-- `UTC_OFF_VALID`. -/
def utcOffValid : UInt8 := 4

/-- `PTP_TIMESCALE`. -/
def ptpTimescale : UInt8 := 8

/-- `TIME_TRACEABLE`. -/
def timeTraceable : UInt8 := 16

/-- The UTC offset that goes with the flags is valid and the time traceable. -/
def utcTrusted (flags : UInt8) : Bool := flags &&& utcOffValid ≠ 0 && flags &&& timeTraceable ≠ 0

/-- The leap second that the flags announce. -/
def leapOf (flags : UInt8) : Int :=
  if flags &&& leap61 ≠ 0 then 1 else if flags &&& leap59 ≠ 0 then -1 else 0

/-! ## Leap seconds -/

/-- `is_utc_ambiguous`. -/
def isUtcAmbiguous (ts : Nat) : Bool := nsPerDay - ts % nsPerDay ≤ nsPerSec

/-- `leap_second_status`: the status, and what becomes of `leap` and `utc_offset`. -/
def leapSecondStatus (ts : Nat) (leapSet leap utcOffset : Int) : Int × Int × Int :=
  let leapStatus : Int :=
    if ts % nsPerDay > 6 * nsPerHour then if leapSet = 0 then leap else leapSet
    else if leapSet ≠ 0 then 0 else leapSet
  if leap = 0 ∧ leapStatus ≠ 0 then (leapStatus, leapStatus, utcOffset - leapStatus)
  else if leap ≠ 0 ∧ leapStatus = 0 then (leapStatus, leapStatus, utcOffset + leap)
  else (leapStatus, leap, utcOffset)

/-! ## The correction for UTC

The same for every model of the clock: what `clock_utc_correct` computes from the values it reads. -/

/-- The time stamp that `clock_utc_correct` looks at, as an unsigned number. -/
def utcTime (servoState : ServoState) (flags : UInt8) (masterOffset utcOffset ingress : Int) : Nat :=
  let ts := if servoState = .unlocked then
      let target := tmvSub ingress masterOffset
      if flags &&& ptpTimescale ≠ 0 then target - utcOffset * nsPerSec else target
    else ingress
  (ts % 2 ^ 64).toNat

/-- What `clock_utc_correct` finds at a time stamp: the leap second that is set from then on and the
offset from UTC that applies. There is nothing if the clock is not to be updated. -/
def utcFound (realtime : Bool) (flags : UInt8) (leapSet utcOffset : Int) (ts : Nat) :
    Option (Int × Int) :=
  let leap := leapOf flags
  if (leap ≠ 0 ∨ leapSet ≠ 0) ∧ realtime then
    if isUtcAmbiguous ts then none else
      let (clockLeap, _, utcOffset) := leapSecondStatus ts leapSet leap utcOffset
      some (clockLeap, utcOffset)
  else some (leapSet, utcOffset)

/-- Nothing is found only in the last second of a day with a leap second, at a clock that keeps real
time. -/
theorem utcFound_none {realtime : Bool} {flags : UInt8} {leapSet utcOffset : Int} {ts : Nat} :
    utcFound realtime flags leapSet utcOffset ts = none ↔
      ((leapOf flags ≠ 0 ∨ leapSet ≠ 0) ∧ realtime) ∧ isUtcAmbiguous ts := by
  unfold utcFound
  dsimp only
  split
  next leaps =>
    split
    next ambiguous => exact ⟨fun _ => ⟨leaps, ambiguous⟩, fun _ => rfl⟩
    next clear => exact ⟨nofun, fun both => absurd both.2 clear⟩
  next noLeap => exact ⟨nofun, fun both => absurd both.1 noLeap⟩

/-- The end of `clock_utc_correct`: the offset of the master with the offset from UTC. -/
def utcApply (flags : UInt8) (utcOffset masterOffset : Int) : Int :=
  if flags &&& ptpTimescale = 0 then masterOffset
  else tmvAdd masterOffset (timespecToTmv utcOffset 0)

section Synchronisation

variable (c : Clock) (a : Answers)

/-- `clock_utc_correct`: whether the clock is not to be updated. The offset that applies is noted. -/
def clockUtcCorrect (p : Nat) (ingress : Int) (s : ClockState) : Bool × ClockState :=
  if !c.utcTimescale then (false, s) else
    let ts := utcTime s.servoState s.tds.flags s.masterOffset s.utcOffset ingress
    match utcFound s.realtime s.tds.flags s.leapSet s.utcOffset ts with
    | none => (true, s)
    | some (leapSet, utcOffset) =>
      let s := { s.note (.corrected p utcOffset s.utcOffset s.tds.flags) with leapSet }
      (false, { s with masterOffset := utcApply s.tds.flags utcOffset s.masterOffset })

/-- The correction for UTC does nothing, or it notes an offset and changes two fields. -/
theorem clockUtcCorrect_cases (p : Nat) (ingress : Int) (s : ClockState) :
    (clockUtcCorrect c p ingress s).2 = s ∨ ∃ utcOffset leapSet masterOffset,
      (clockUtcCorrect c p ingress s).2 =
        { s.note (.corrected p utcOffset s.utcOffset s.tds.flags) with leapSet, masterOffset } := by
  unfold clockUtcCorrect
  split
  · exact Or.inl rfl
  dsimp only
  split
  · exact Or.inl rfl
  · exact Or.inr ⟨_, _, _, rfl⟩

/-! ## The time stamp processor -/

/-- `tsproc_down_ts`. -/
def tsprocDownTs (remoteTs localTs : Int) (t1From t2From : PortIdentity) (tsp : Tsproc) : Tsproc :=
  { tsp with t1 := remoteTs, t2 := localTs, t1From := some t1From, t2From := some t2From }

/-- `tsproc_up_ts`. -/
def tsprocUpTs (localTs remoteTs : Int) (t4From : PortIdentity) (tsp : Tsproc) : Tsproc :=
  { tsp with t3 := localTs, t4 := remoteTs, t4From := some t4From }

/-- `tsproc_set_delay`. -/
def tsprocSetDelay (tsp : Tsproc) : Tsproc := { tsp with filteredDelayValid := true }

/-- `tsproc_reset`. -/
def tsprocReset (full : Bool) (tsp : Tsproc) : Tsproc :=
  { filteredDelayValid := tsp.filteredDelayValid && !full }

/-- `tsproc_update_delay` computes a delay. -/
def Tsproc.hasDelay (tsp : Tsproc) : Bool := tsp.t2 ≠ 0 && tsp.t3 ≠ 0

/-- `tsproc_update_offset` computes an offset. -/
def Tsproc.hasOffset (mode : TsprocMode) (tsp : Tsproc) : Bool :=
  tsp.t1 ≠ 0 && tsp.t2 ≠ 0 &&
    match mode with
    | .filter => tsp.filteredDelayValid
    | .raw | .rawWeight => tsp.t3 ≠ 0
    | .filterWeight => tsp.t3 ≠ 0 && tsp.filteredDelayValid

/-- `tsproc_update_offset` computes a delay on the way. -/
def TsprocMode.usesRawDelay : TsprocMode → Bool
  | .filter => false
  | _ => true

/-- `get_raw_delay` for a port. -/
def getRawDelay (p : Nat) (s : ClockState) : ClockState :=
  s.note (.combined p s.tsproc.t1From s.tsproc.t2From s.tsproc.t4From)

/-- `tsproc_update_offset` of the clock, when it computes an offset. -/
def tsprocUpdateOffset (p : Nat) (s : ClockState) : ClockState :=
  let s := if c.tsprocMode.usesRawDelay then getRawDelay p s else s
  { s with masterOffset := a.offset }

/-- The servo takes a sample. -/
def servoSample (s : ClockState) : ServoState × ClockState :=
  let s := { s with servoState := a.servo }
  if a.servo = .jump then (a.servo, { s with tsproc := tsprocReset false s.tsproc })
  else (a.servo, s)

/-- `clock_synchronize` with time stamps from the messages of the supplied ports. A free running
clock stays unlocked. -/
def clockSynchronize (p : Nat) (ingress origin : Int) (t1From t2From : PortIdentity)
    (s : ClockState) : ServoState × ClockState :=
  let s := { s with tsproc := tsprocDownTs origin ingress t1From t2From s.tsproc }
  if !s.tsproc.hasOffset c.tsprocMode then (.unlocked, s) else
    let (suspended, s) := clockUtcCorrect c p ingress (tsprocUpdateOffset c a p s)
    if suspended then (s.servoState, s)
    else if c.freeRunning then (.unlocked, s)
    else servoSample a s

/-- `clock_path_delay`. -/
def clockPathDelay (p : Nat) (req rx : Int) (t4From : PortIdentity) (s : ClockState) : ClockState :=
  let s := { s with tsproc := tsprocUpTs req rx t4From s.tsproc }
  if s.tsproc.hasDelay then
    let s := getRawDelay p s
    { s with tsproc := tsprocSetDelay s.tsproc }
  else s

/-- `clock_peer_delay`. -/
def clockPeerDelay (req rx : Int) (t4From : PortIdentity) (s : ClockState) : ClockState :=
  { s with tsproc := tsprocUpTs req rx t4From (tsprocSetDelay s.tsproc) }

end Synchronisation

end LinuxPtp
