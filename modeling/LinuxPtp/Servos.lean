import LinuxPtp.ClockState
import LinuxPtp.FloatingPoint

/-!
# Clock servos

A servo is given the offset of the clock from its master again and again. It returns the frequency
by which the clock is to be adjusted, and whether the clock is to jump by the offset first. The
numbers of the code that are `double` are any with the operations of `double`.
-/

namespace LinuxPtp.Servos

open FloatingPoint

universe u
variable {F : Type u} [Double F]

/-! ## The servos -/

/-- `struct pi_servo`. -/
structure PiServo (F : Type u) where
  offset0 : Int64
  offset1 : Int64
  local0 : UInt64
  local1 : UInt64
  drift : F
  kp : F
  ki : F
  lastFreq : F
  /-- The cases of `pi_sample` are all that there are. -/
  count : Fin 3
  configuredPiKp : F
  configuredPiKi : F
  configuredPiKpScale : F
  configuredPiKpExponent : F
  configuredPiKpNormMax : F
  configuredPiKiScale : F
  configuredPiKiExponent : F
  configuredPiKiNormMax : F

/-- `struct point`. -/
structure Point (F : Type u) where
  x : UInt64
  y : UInt64
  w : F

/-- `struct result`. -/
structure Result (F : Type u) where
  slope : F
  intercept : F
  err : F
  errUpdates : Nat

/-- `struct linreg_servo`. -/
structure LinregServo (F : Type u) where
  points : List (Point F)
  reference : Point F
  numPoints : Nat
  lastPoint : Nat
  xRemainder : F
  lastUpdate : UInt64
  results : List (Result F)
  size : Nat
  clockFreq : F
  updateInterval : F
  frequencyRatio : F
  leap : Int

/-- `struct shmTime`. -/
structure ShmTime where
  mode : Int
  count : Int
  clockTimeStampSec : UInt64
  clockTimeStampUSec : UInt64
  receiveTimeStampSec : UInt64
  receiveTimeStampUSec : UInt64
  leap : Nat
  precision : Int
  valid : Bool
  clockTimeStampNSec : UInt64
  receiveTimeStampNSec : UInt64

/-- `struct ntpshm_servo`. -/
structure NtpshmServo where
  shm : ShmTime
  leap : Int

/-- The structure that a servo is a part of, with its functions. -/
inductive Core (F : Type u) where
  | pi (s : PiServo F)
  | linreg (s : LinregServo F)
  | ntpshm (s : NtpshmServo)
  | nullf

/-- `struct servo`. -/
structure Servo (F : Type u) where
  maxFrequency : F
  stepThreshold : F
  firstStepThreshold : F
  firstUpdate : Bool
  core : Core F

/-- An integer of 64 bits as a number. -/
def ofInt64 (x : Int64) : F := (x.toInt : F)

/-- An integer of 64 bits without a sign as a number. -/
def ofUInt64 (x : UInt64) : F := ((x.toNat : Int) : F)

/-- When the clock is to jump, as every servo has it. -/
def jumps (servo : Servo F) (error : F) : Bool :=
  (servo.firstUpdate && servo.firstStepThreshold != 0.0 &&
      servo.firstStepThreshold < fabs error) ||
    (servo.stepThreshold != 0.0 && servo.stepThreshold < fabs error)

/-! ## A proportional and integral controller (`pi.c`) -/

/-- What `pi_sample` waits for before it estimates the frequency: whether less time has passed. -/
def tooShort (s : PiServo F) : Bool :=
  let localdiff : F := ofUInt64 (s.local1 - s.local0) / 1e9
  let localdiff := localdiff + localdiff * 0.001
  let freqEstInterval := 0.016 / s.ki
  let freqEstInterval := if 1000.0 < freqEstInterval then 1000.0 else freqEstInterval
  localdiff < freqEstInterval

/-- The cases of `pi_sample`. -/
def piCases (servo : Servo F) (offset : Int64) (localTs : UInt64) (weight : F) (s : PiServo F) :
    F × ServoState × PiServo F :=
  match s.count with
  | 0 => (s.lastFreq, .unlocked, { s with offset0 := offset, local0 := localTs, count := 1 })
  | 1 =>
    let s := { s with offset1 := offset, local1 := localTs }
    if s.local1 ≤ s.local0 then (s.lastFreq, .unlocked, { s with count := 0 })
    else if tooShort s then (s.lastFreq, .unlocked, s)
    else
      let drift := s.drift + (1e9 - s.drift) * ofInt64 (s.offset1 - s.offset0) /
        ofUInt64 (s.local1 - s.local0)
      let drift :=
        if drift < -servo.maxFrequency then -servo.maxFrequency
        else if servo.maxFrequency < drift then servo.maxFrequency
        else drift
      let state := if jumps servo (ofInt64 offset) then ServoState.jump else .locked
      (drift, state, { s with drift := drift, count := 2 })
  | 2 =>
    if servo.stepThreshold != 0.0 && servo.stepThreshold < fabs (ofInt64 offset) then
      (s.lastFreq, .unlocked, { s with count := 0 })
    else
      let kiTerm := s.ki * ofInt64 offset * weight
      let ppb := s.kp * ofInt64 offset * weight + s.drift + kiTerm
      if ppb < -servo.maxFrequency then (-servo.maxFrequency, .locked, s)
      else if servo.maxFrequency < ppb then (servo.maxFrequency, .locked, s)
      else (ppb, .locked, { s with drift := s.drift + kiTerm })

/-- `pi_sample`. -/
def piSample (servo : Servo F) (offset : Int64) (localTs : UInt64) (weight : F) (s : PiServo F) :
    F × ServoState × PiServo F :=
  let (ppb, state, s) := piCases servo offset localTs weight s
  (ppb, state, { s with lastFreq := ppb })

/-- `pi_sync_interval`. -/
def piSyncInterval (interval : F) (s : PiServo F) : PiServo F :=
  let kp := s.configuredPiKpScale * pow interval s.configuredPiKpExponent
  let kp := if s.configuredPiKpNormMax / interval < kp then s.configuredPiKpNormMax / interval
    else kp
  let ki := s.configuredPiKiScale * pow interval s.configuredPiKiExponent
  let ki := if s.configuredPiKiNormMax / interval < ki then s.configuredPiKiNormMax / interval
    else ki
  { s with kp := kp, ki := ki }

/-- `pi_reset`. -/
def piReset (s : PiServo F) : PiServo F := { s with count := 0 }

/-- What the configuration has for the servos. -/
structure ServoConfig (F : Type u) where
  piProportionalConst : F
  piIntegralConst : F
  piProportionalScale : F
  piProportionalExponent : F
  piProportionalNormMax : F
  piIntegralScale : F
  piIntegralExponent : F
  piIntegralNormMax : F
  stepThreshold : F
  firstStepThreshold : F
  maxFrequency : Int
  ntpshmSegment : Int

/-- `pi_servo_create`. -/
def piServoCreate (cfg : ServoConfig F) (fadj : Int) (swTs : Bool) : PiServo F :=
  let s : PiServo F := {
    offset0 := 0, offset1 := 0, local0 := 0, local1 := 0
    drift := fadj
    lastFreq := fadj
    kp := 0.0
    ki := 0.0
    count := 0
    configuredPiKp := cfg.piProportionalConst
    configuredPiKi := cfg.piIntegralConst
    configuredPiKpScale := cfg.piProportionalScale
    configuredPiKpExponent := cfg.piProportionalExponent
    configuredPiKpNormMax := cfg.piProportionalNormMax
    configuredPiKiScale := cfg.piIntegralScale
    configuredPiKiExponent := cfg.piIntegralExponent
    configuredPiKiNormMax := cfg.piIntegralNormMax }
  if s.configuredPiKp != 0.0 && s.configuredPiKi != 0.0 then
    { s with
      configuredPiKpScale := s.configuredPiKp
      configuredPiKiScale := s.configuredPiKi
      configuredPiKpExponent := 0.0
      configuredPiKiExponent := 0.0
      configuredPiKpNormMax := 1.0
      configuredPiKiNormMax := 2.0 }
  else if !(s.configuredPiKpScale != 0.0) || !(s.configuredPiKiScale != 0.0) then
    if swTs then { s with configuredPiKpScale := 0.1, configuredPiKiScale := 0.001 }
    else { s with configuredPiKpScale := 0.7, configuredPiKiScale := 0.3 }
  else s

/-! ## Linear regression (`linreg.c`) -/

/-- `MIN_SIZE`. -/
def minSize : Nat := 2

/-- `MAX_SIZE`. -/
def maxSize : Nat := 6

/-- `MAX_POINTS`. -/
def maxPoints : Nat := 2 ^ maxSize

/-- A line after the reference has moved. -/
def Result.moved (x y : Int64) (res : Result F) : Result F :=
  { res with intercept := res.intercept + (ofInt64 x * res.slope - ofInt64 y) }

/-- `move_reference`. -/
def moveReference (x y : Int64) (s : LinregServo F) : LinregServo F :=
  { s with
    reference := { s.reference with
      x := s.reference.x + x.toUInt64, y := s.reference.y + y.toUInt64 }
    results := s.results.map (Result.moved x y) }

/-- `update_reference`. -/
def updateReference (localTs : UInt64) (s : LinregServo F) : LinregServo F :=
  let s :=
    if s.lastUpdate = 0 then s
    else
      let yInterval := (localTs - s.lastUpdate).toInt64
      let xInterval := ofInt64 yInterval / (1.0 + s.clockFreq / 1e9) + s.xRemainder
      let whole := Int64.ofInt (truncate xInterval)
      moveReference whole yInterval { s with xRemainder := xInterval - ofInt64 whole }
  { s with lastUpdate := localTs }

/-- `add_sample`. -/
def addSample (offset : Int64) (weight : F) (s : LinregServo F) : LinregServo F :=
  let lastPoint := (s.lastPoint + 1) % maxPoints
  { s with
    lastPoint := lastPoint
    points := s.points.set lastPoint
      { x := s.reference.x, y := s.reference.y - offset.toUInt64, w := weight }
    numPoints := if s.numPoints < maxPoints then s.numPoints + 1 else s.numPoints }

/-- The sums of `regress`. -/
structure Sums (F : Type u) where
  x : F
  y : F
  xy : F
  x2 : F
  w : F

/-- The sums of nothing. -/
def Sums.none : Sums F := ⟨0.0, 0.0, 0.0, 0.0, 0.0⟩

/-- The sums with a point. -/
def Sums.add (reference : Point F) (sums : Sums F) (point : Point F) : Sums F :=
  let x := ofInt64 (point.x - reference.x).toInt64
  let y := ofInt64 (point.y - reference.y).toInt64
  { x := sums.x + x * point.w
    y := sums.y + y * point.w
    xy := sums.xy + x * y * point.w
    x2 := sums.x2 + x * x * point.w
    w := sums.w + point.w }

/-- The moving average of the error of a prediction. -/
def Result.withError (y0 : F) (res : Result F) : Result F :=
  if res.slope != 0.0 then
    let e := fabs (res.intercept - y0)
    if res.errUpdates < 10 then
      { res with
        err := (res.err * ((res.errUpdates : Int) : F) + e) / ((res.errUpdates + 1 : Int) : F)
        errUpdates := res.errUpdates + 1 }
    else { res with err := res.err + 0.02 * (e - res.err) }
  else res

/-- The slope and the intercept that sums of points have. -/
def Result.fitted (sums : Sums F) (res : Result F) : Result F :=
  let slope := (sums.xy - sums.x * sums.y / sums.w) / (sums.x2 - sums.x * sums.x / sums.w)
  { res with slope := slope, intercept := (sums.y - slope * sums.x) / sums.w }

/-- A point by how many came after it. -/
def LinregServo.recent (s : LinregServo F) (i : Nat) : Point F :=
  s.points.getD ((maxPoints + s.lastPoint - i) % maxPoints) ⟨0, 0, 0.0⟩

/-- The sizes of `regress` from one on, with the sums of the points so far. -/
def regressFrom (s : LinregServo F) (y0 : F) :
    Nat → Nat → Sums F → List (Result F) → List (Result F)
  | _, _, _, [] => []
  | size, i, sums, res :: rest =>
    let n := 2 ^ size
    if s.numPoints < n then res :: rest
    else
      let res := res.withError y0
      let sums := ((List.range' i (n - i)).map s.recent).foldl (Sums.add s.reference) sums
      res.fitted sums :: regressFrom s y0 (size + 1) n sums rest

/-- `regress`. -/
def regress (s : LinregServo F) : LinregServo F :=
  let y0 : F := ofInt64 ((s.recent 0).y - s.reference.y).toInt64
  { s with results := regressFrom s y0 minSize 0 Sums.none s.results }

/-- The loop of `update_size`. -/
def bestSize (size : Nat) (best : Nat × F) : List (Result F) → Nat
  | [] => best.1
  | res :: rest =>
    bestSize (size + 1)
      (if best.1 = 0 && res.slope != 0.0 || (res.err < best.2 * 1.05 && 10 ≤ res.errUpdates) then
        (size, res.err)
      else best) rest

/-- `update_size`. -/
def updateSize (s : LinregServo F) : LinregServo F :=
  { s with size := bestSize minSize (0, 0.0) s.results }

/-- The line of the size that is chosen. -/
def LinregServo.line (s : LinregServo F) : Result F :=
  s.results.getD (s.size - minSize) ⟨0.0, 0.0, 0.0, 0⟩

/-- The frequency that `linreg_sample` sets for a line of a size. -/
def clockFrequency (servo : Servo F) (updateInterval : F) (size : Nat) (slope intercept : F) : F :=
  let clockFreq := 1e9 * (slope - 1.0)
  let corrInterval : Nat := if size ≤ 4 then 1 else size / 2
  let clockFreq := clockFreq + intercept / updateInterval / ((corrInterval : Int) : F)
  if servo.maxFrequency < clockFreq then servo.maxFrequency
  else if clockFreq < -servo.maxFrequency then -servo.maxFrequency
  else clockFreq

/-- The part of `linreg_sample` for a clock that will be stepped by the offset. The lines that are
used after it are those after the step. -/
def stepped (offset : Int64) (s : LinregServo F) : LinregServo F :=
  { moveReference 0 (-offset) s with lastUpdate := s.lastUpdate - offset.toUInt64 }

/-- `linreg_sample`. -/
def linregSample (servo : Servo F) (offset : Int64) (localTs : UInt64) (weight : F)
    (s : LinregServo F) : F × ServoState × LinregServo F :=
  let s := updateSize (regress (addSample offset weight (updateReference localTs s)))
  if s.size < minSize then (-s.clockFreq, .unlocked, s)
  else
    let (state, s) :=
      if jumps servo s.line.intercept then
        (ServoState.jump, stepped offset s)
      else (.locked, s)
    let clockFreq := clockFrequency servo s.updateInterval s.size s.line.slope s.line.intercept
    let frequencyRatio := s.line.slope / (1.0 + clockFreq / 1e9)
    (-clockFreq, state, { s with clockFreq := clockFreq, frequencyRatio := frequencyRatio })

/-- `linreg_sync_interval`. -/
def linregSyncInterval (interval : F) (s : LinregServo F) : LinregServo F :=
  { s with updateInterval := interval }

/-- `linreg_reset`. -/
def linregReset (s : LinregServo F) : LinregServo F :=
  { s with
    numPoints := 0
    lastUpdate := 0
    size := 0
    frequencyRatio := 1.0
    results := s.results.map fun res => { res with slope := 0.0, errUpdates := 0 } }

/-- `linreg_leap`. -/
def linregLeap (leap : Int) (s : LinregServo F) : LinregServo F :=
  let s :=
    if s.leap ≠ 0 ∧ leap = 0 then moveReference 0 (Int64.ofInt (s.leap * 1000000000)) s else s
  { s with leap := leap }

/-- `linreg_servo_create`. -/
def linregServoCreate (fadj : Int) : LinregServo F where
  points := List.replicate maxPoints ⟨0, 0, 0.0⟩
  reference := ⟨0, 0, 0.0⟩
  numPoints := 0
  lastPoint := 0
  xRemainder := 0.0
  lastUpdate := 0
  results := List.replicate (maxSize - minSize + 1) ⟨0.0, 0.0, 0.0, 0⟩
  size := 0
  clockFreq := ((-fadj : Int) : F)
  updateInterval := 0.0
  frequencyRatio := 1.0
  leap := 0

/-! ## A reference clock for another process (`ntpshm.c`) -/

/-- `ntpshm_sample`. -/
def ntpshmSample (offset : Int64) (localTs : UInt64) (s : NtpshmServo) :
    F × ServoState × NtpshmServo :=
  let clockTs := localTs - offset.toUInt64
  let shm := { s.shm with
    mode := 1
    count := s.shm.count + 2
    clockTimeStampSec := clockTs / 1000000000
    clockTimeStampNSec := clockTs % 1000000000
    clockTimeStampUSec := clockTs % 1000000000 / 1000
    receiveTimeStampSec := localTs / 1000000000
    receiveTimeStampNSec := localTs % 1000000000
    receiveTimeStampUSec := localTs % 1000000000 / 1000
    precision := -30
    leap := if s.leap = -1 then 2 else if s.leap = 1 then 1 else 0
    valid := true }
  (0.0, .unlocked, { s with shm := shm })

/-- `ntpshm_leap`. -/
def ntpshmLeap (leap : Int) (s : NtpshmServo) : NtpshmServo := { s with leap := leap }

/-- `SHMKEY`. -/
def shmKey : Int := 0x4e545030

/-- `ntpshm_servo_create`, with the segment of a key, if it can be had. -/
def ntpshmServoCreate (segment : Int → Option ShmTime) (cfg : ServoConfig F) :
    Option NtpshmServo :=
  (segment (shmKey + cfg.ntpshmSegment)).map fun shm => { shm := shm, leap := 0 }

/-! ## A servo that leaves the frequency alone (`nullf.c`) -/

/-- `nullf_sample`. -/
def nullfSample (servo : Servo F) (offset : Int64) : F × ServoState :=
  if offset = 0 then (0.0, .locked)
  else if jumps servo (ofInt64 offset) then (0.0, .jump)
  else (0.0, .unlocked)

/-! ## Any servo (`servo.c`) -/

/-- `enum servo_type`. -/
inductive ServoType where
  | pi
  | linreg
  | ntpshm
  | nullf

/-- The servo of a type. -/
def coreCreate (segment : Int → Option ShmTime) (cfg : ServoConfig F) (type : ServoType)
    (fadj : Int) (swTs : Bool) : Option (Core F) :=
  match type with
  | .pi => some (.pi (piServoCreate cfg fadj swTs))
  | .linreg => some (.linreg (linregServoCreate fadj))
  | .ntpshm => (ntpshmServoCreate segment cfg).map .ntpshm
  | .nullf => some .nullf

/-- `servo_create`. -/
def servoCreate (segment : Int → Option ShmTime) (cfg : ServoConfig F) (type : ServoType)
    (fadj maxPpb : Int) (swTs : Bool) : Option (Servo F) :=
  (coreCreate segment cfg type fadj swTs).map fun core =>
    { maxFrequency :=
        if cfg.maxFrequency ≠ 0 ∧ (cfg.maxFrequency : F) < maxPpb then (cfg.maxFrequency : F)
        else maxPpb
      stepThreshold := if 0.0 < cfg.stepThreshold then cfg.stepThreshold * 1000000000.0 else 0.0
      firstStepThreshold :=
        if 0.0 < cfg.firstStepThreshold then cfg.firstStepThreshold * 1000000000.0 else 0.0
      firstUpdate := true
      core := core }

/-- `servo->sample`. -/
def coreSample (servo : Servo F) (offset : Int64) (localTs : UInt64) (weight : F) :
    F × ServoState × Core F :=
  match servo.core with
  | .pi s =>
    let (ppb, state, s) := piSample servo offset localTs weight s
    (ppb, state, .pi s)
  | .linreg s =>
    let (ppb, state, s) := linregSample servo offset localTs weight s
    (ppb, state, .linreg s)
  | .ntpshm s =>
    let (ppb, state, s) := ntpshmSample offset localTs s
    (ppb, state, .ntpshm s)
  | .nullf =>
    let (ppb, state) := nullfSample servo offset
    (ppb, state, .nullf)

/-- `servo_sample`. -/
def servoSample (servo : Servo F) (offset : Int64) (localTs : UInt64) (weight : F) :
    F × ServoState × Servo F :=
  let (r, state, core) := coreSample servo offset localTs weight
  (r, state, { servo with
    core := core
    firstUpdate := if state = .unlocked then servo.firstUpdate else false })

/-- `servo_sync_interval`. -/
def servoSyncInterval (interval : F) (servo : Servo F) : Servo F :=
  match servo.core with
  | .pi s => { servo with core := .pi (piSyncInterval interval s) }
  | .linreg s => { servo with core := .linreg (linregSyncInterval interval s) }
  | _ => servo

/-- `servo_reset`. -/
def servoReset (servo : Servo F) : Servo F :=
  match servo.core with
  | .pi s => { servo with core := .pi (piReset s) }
  | .linreg s => { servo with core := .linreg (linregReset s) }
  | _ => servo

/-- `servo_rate_ratio`. -/
def servoRateRatio (servo : Servo F) : F :=
  match servo.core with
  | .linreg s => s.frequencyRatio
  | _ => 1.0

/-- `servo_leap`. -/
def servoLeap (leap : Int) (servo : Servo F) : Servo F :=
  match servo.core with
  | .linreg s => { servo with core := .linreg (linregLeap leap s) }
  | .ntpshm s => { servo with core := .ntpshm (ntpshmLeap leap s) }
  | _ => servo

/-! ## Runs -/

/-- What a clock does with its servo. -/
inductive ServoEvent (F : Type u) where
  | sample (offset : Int64) (localTs : UInt64) (weight : F)
  | syncInterval (interval : F)
  | reset
  | leap (leap : Int)

/-- One event. -/
def servoStep (servo : Servo F) : ServoEvent F → Servo F
  | .sample offset localTs weight => (servoSample servo offset localTs weight).2.2
  | .syncInterval interval => servoSyncInterval interval servo
  | .reset => servoReset servo
  | .leap leap => servoLeap leap servo

/-- What the samples of a run return. -/
def servoResults (servo : Servo F) : List (ServoEvent F) → List (F × ServoState)
  | [] => []
  | .sample offset localTs weight :: events =>
    let (r, state, servo) := servoSample servo offset localTs weight
    (r, state) :: servoResults servo events
  | event :: events => servoResults (servoStep servo event) events

end LinuxPtp.Servos
