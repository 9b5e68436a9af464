import LinuxPtp.ClockSync
import LinuxPtp.SyncMonitor
import LinuxPtp.TimestampProcessor
import Mathlib.Logic.Function.Basic

/-!
# Reported times

The offset from the master, the path delay and the peer delays of the ports are kept in nanoseconds
and stored in the data sets in units of 2^-16 nanoseconds, by a shift to the left in 64 bits.

Times that were produced are written down beside the state, one for each data set, so that what is
stored can be compared with what was meant. Where the clock becomes its own grandmaster, or a port
is initialized, the code stores a zero, and zero counts as the time that was produced.
-/

namespace LinuxPtp.TimestampProcessor

open Tmv Filters

/-! ## The clock (`clock.c`) -/

/-- `struct currentDS`, without the steps. -/
structure CurrentDS where
  offsetFromMaster : Int
  meanPathDelay : Int

/-- The fields of `struct clock` that have to do with times. -/
structure Clock where
  tsproc : Tsproc
  freeRunning : Bool
  utcTimescale : Bool
  realtime : Bool
  initialDelay : Int
  masterOffset : Int
  pathDelay : Int
  ingressTs : Int
  servoState : ServoState
  utcOffset : Int
  flags : UInt8
  leapSet : Int
  cur : CurrentDS

/-- `clock_utc_correct`: whether the clock is not to be updated. -/
def clockUtcCorrect (ingress : Int) (c : Clock) : Bool × Clock :=
  if !c.utcTimescale then (false, c) else
    let ts := utcTime c.servoState c.flags c.masterOffset c.utcOffset ingress
    match utcFound c.realtime c.flags c.leapSet c.utcOffset ts with
    | none => (true, c)
    | some (leapSet, utcOffset) =>
      (false, { c with leapSet, masterOffset := utcApply c.flags utcOffset c.masterOffset })

/-- The correction for UTC does nothing, or it changes two fields. -/
theorem clockUtcCorrect_cases (ingress : Int) (c : Clock) : (clockUtcCorrect ingress c).2 = c ∨
    ∃ leapSet masterOffset, (clockUtcCorrect ingress c).2 = { c with leapSet, masterOffset } := by
  unfold clockUtcCorrect
  split
  · exact Or.inl rfl
  dsimp only
  split
  · exact Or.inl rfl
  · exact Or.inr ⟨_, _, rfl⟩

/-- `clock_synchronize`. What the servo answers and the ratio that it knows then are supplied. -/
def clockSynchronize (ingress origin : Int) (state : ServoState) (ratio : Option (Int → Int))
    (c : Clock) : Clock :=
  let c := { c with ingressTs := ingress, tsproc := tsprocDownTs origin ingress c.tsproc }
  match tsprocUpdateOffset c.tsproc with
  | none => c
  | some offset =>
    let (suspended, c) := clockUtcCorrect ingress { c with masterOffset := offset }
    if suspended then c else
      let c := { c with cur.offsetFromMaster := tmvToTimeInterval c.masterOffset }
      if c.freeRunning then c else
        let c := { c with
          servoState := state
          tsproc := tsprocSetClockRateRatio ratio c.tsproc }
        if state = .jump then { c with ingressTs := 0, tsproc := tsprocReset false c.tsproc }
        else c

/-- `clock_path_delay`. -/
def clockPathDelay (req rx : Int) (c : Clock) : Clock :=
  let c := { c with tsproc := tsprocUpTs req rx c.tsproc }
  match tsprocUpdateDelay c.tsproc with
  | none => c
  | some (delay, tsproc) =>
    { c with tsproc, pathDelay := delay, cur.meanPathDelay := tmvToTimeInterval delay }

/-- `clock_peer_delay`. -/
def clockPeerDelay (ppd req rx : Int) (c : Clock) : Clock :=
  { c with pathDelay := ppd, tsproc := tsprocUpTs req rx (tsprocSetDelay ppd c.tsproc) }

/-- The part of `handle_state_decision_event` for a new best master. -/
def newBest (c : Clock) : Clock :=
  let tsproc := tsprocReset true c.tsproc
  { c with
    tsproc := if c.initialDelay = 0 then tsproc else tsprocSetDelay c.initialDelay tsproc
    ingressTs := 0
    pathDelay := c.initialDelay }

/-! ## A port (`port.c`) -/

/-- The fields of `struct port` for the peer delay. -/
structure Port where
  tsproc : Tsproc
  state : PortState
  asymmetry : Int
  peerDelay : Int
  peerMeanPathDelay : Int

/-- What the second message of a peer's answer adds. -/
structure FollowUp where
  t2 : BinaryTimestamp
  t3 : BinaryTimestamp
  correction : Int

/-- A request for the peer delay, and an answer that belongs to it. -/
structure Exchange where
  t1 : Int
  t4 : Int
  correction : Int
  /-- There is none after a response in one step. -/
  followUp : Option FollowUp

/-- The time `t2`. -/
def Exchange.t2 (e : Exchange) : Int :=
  match e.followUp with
  | none => 0
  | some fup => SyncMonitor.timestampToTmv fup.t2

/-- The time `t3c`, with all corrections. -/
def Exchange.t3c (asymmetry : Int) (e : Exchange) : Int :=
  let c1 := correctionToTmv (int64 (e.correction + asymmetry))
  match e.followUp with
  | none => tmvAdd 0 (tmvAdd c1 0)
  | some fup =>
    tmvAdd (SyncMonitor.timestampToTmv fup.t3) (tmvAdd c1 (correctionToTmv fup.correction))

/-- The time stamp processor of a port takes the times of an exchange. -/
def peerTsproc (e : Exchange) (ratio : Option (Int → Int)) (p : Port) : Tsproc :=
  let tsproc := tsprocSetClockRateRatio ratio p.tsproc
  tsprocDownTs (e.t3c p.asymmetry) e.t4 (tsprocUpTs e.t1 e.t2 tsproc)

/-- `port_peer_delay` with the messages of an exchange, and the clock. -/
def portPeerDelay (e : Exchange) (ratio : Option (Int → Int)) (p : Port) (c : Clock) :
    Port × Clock :=
  match tsprocUpdateDelay (peerTsproc e ratio p) with
  | none => ({ p with tsproc := peerTsproc e ratio p }, c)
  | some (delay, tsproc) =>
    let p := { p with
      tsproc, peerDelay := delay, peerMeanPathDelay := tmvToTimeInterval delay }
    if p.state = .uncalibrated ∨ p.state = .slave then (p, clockPeerDelay delay e.t1 e.t2 c)
    else (p, c)

/-! ## Runs -/

/-- A clock and its ports. -/
structure System where
  clock : Clock
  ports : Nat → Port

/-- What happens to a clock that has to do with its times. -/
inductive Event where
  | sync (ingress origin : Int) (state : ServoState) (ratio : Option (Int → Int))
  | delay (req rx : Int)
  | peerDelay (port : Nat) (e : Exchange) (ratio : Option (Int → Int))
  | newBest
  | grandmaster (flags : UInt8)
  | slave (flags : UInt8) (currentUtcOffset : Int)
  | portInitialize (port : Nat)
  | portState (port : Nat) (state : PortState)

/-- `clock_update_slave`. -/
def clockUpdateSlave (flags : UInt8) (currentUtcOffset : Int) (c : Clock) : Clock :=
  { c with
    flags
    utcOffset := if utcTrusted flags ∨ currentUtcOffset > c.utcOffset then currentUtcOffset
      else c.utcOffset }

/-- One event. -/
def step (s : System) : Event → System
  | .sync ingress origin state ratio =>
    { s with clock := clockSynchronize ingress origin state ratio s.clock }
  | .delay req rx => { s with clock := clockPathDelay req rx s.clock }
  | .peerDelay port e ratio =>
    let (p, c) := portPeerDelay e ratio (s.ports port) s.clock
    { clock := c, ports := Function.update s.ports port p }
  | .newBest => { s with clock := newBest s.clock }
  | .grandmaster flags => { s with clock := { s.clock with cur := ⟨0, 0⟩, flags } }
  | .slave flags currentUtcOffset =>
    { s with clock := clockUpdateSlave flags currentUtcOffset s.clock }
  | .portInitialize port =>
    { s with ports := Function.update s.ports port { s.ports port with peerMeanPathDelay := 0 } }
  | .portState port state =>
    { s with ports := Function.update s.ports port { s.ports port with state } }

/-- The settings of a clock and its ports. -/
structure Settings where
  mode : TsprocMode
  delayFilter : Filter
  freeRunning : Bool
  utcTimescale : Bool
  realtime : Bool
  initialDelay : Int
  utcOffset : Int
  portMode : Nat → TsprocMode
  portFilter : Nat → Filter
  asymmetry : Nat → Int

/-- A clock that was created. -/
def created (settings : Settings) : System where
  clock := {
    tsproc := tsprocCreate settings.mode settings.delayFilter
    freeRunning := settings.freeRunning
    utcTimescale := settings.utcTimescale
    realtime := settings.realtime
    initialDelay := settings.initialDelay
    masterOffset := 0
    pathDelay := 0
    ingressTs := 0
    servoState := .unlocked
    utcOffset := settings.utcOffset
    flags := 0
    leapSet := 0
    cur := ⟨0, 0⟩ }
  ports port := {
    tsproc := tsprocCreate (settings.portMode port) (settings.portFilter port)
    state := .initializing
    asymmetry := settings.asymmetry port
    peerDelay := 0
    peerMeanPathDelay := 0 }

/-! ## What is reported -/

/-- The last times that were produced, in nanoseconds. -/
structure Times where
  offset : Int
  delay : Int
  peerDelay : Nat → Int

/-- The offset from the master that a message down yields, in the time scale of the clock. -/
def producedOffset (ingress origin : Int) (c : Clock) : Option Int :=
  let c := { c with ingressTs := ingress, tsproc := tsprocDownTs origin ingress c.tsproc }
  match tsprocUpdateOffset c.tsproc with
  | none => none
  | some offset =>
    let (suspended, c) := clockUtcCorrect ingress { c with masterOffset := offset }
    if suspended then none else some c.masterOffset

/-- The path delay that a message up yields. -/
def producedDelay (req rx : Int) (c : Clock) : Option Int :=
  (tsprocUpdateDelay (tsprocUpTs req rx c.tsproc)).map Prod.fst

/-- The peer delay that an exchange yields. -/
def producedPeerDelay (e : Exchange) (ratio : Option (Int → Int)) (p : Port) : Option Int :=
  (tsprocUpdateDelay (peerTsproc e ratio p)).map Prod.fst

/-- The times that an event produces take the place of the earlier ones. -/
def Times.after (times : Times) (s : System) : Event → Times
  | .sync ingress origin _ _ =>
    { times with offset := (producedOffset ingress origin s.clock).getD times.offset }
  | .delay req rx => { times with delay := (producedDelay req rx s.clock).getD times.delay }
  | .peerDelay port e ratio =>
    let new := producedPeerDelay e ratio (s.ports port)
    { times with
      peerDelay := Function.update times.peerDelay port (new.getD (times.peerDelay port)) }
  | .grandmaster _ => { times with offset := 0, delay := 0 }
  | .portInitialize port =>
    { times with peerDelay := Function.update times.peerDelay port 0 }
  | _ => times

/-- The system after some events, and the times that were produced last. -/
def run (settings : Settings) (events : List Event) : System × Times :=
  events.foldl (fun (s, times) event => (step s event, times.after s event))
    (created settings, ⟨0, 0, fun _ => 0⟩)

/-- A `TimeInterval` in nanoseconds, as it is shown. -/
def nanoseconds (interval : Int) : Int := interval / 2 ^ 16

/-- An interval shows a time, or the most or the least that there is, with the sign of the time. -/
def Faithful (time interval : Int) : Prop :=
  nanoseconds interval = time ∨
    (0 < time ∧ nanoseconds interval = nanoseconds (2 ^ 63 - 1)) ∨
    (time < 0 ∧ nanoseconds interval = nanoseconds (-2 ^ 63))

instance (time interval : Int) : Decidable (Faithful time interval) :=
  inferInstanceAs (Decidable (_ ∨ _))

/-- A time is less than 2^47 nanoseconds, about 39 hours, or it happens to be one of those that
leave the most or the least of the 48 bits that remain of it. -/
def Convertible (time : Int) : Prop :=
  (-2 ^ 47 ≤ time ∧ time < 2 ^ 47) ∨
    (0 < time ∧ time % 2 ^ 48 = 2 ^ 47 - 1) ∨ (time < 0 ∧ time % 2 ^ 48 = 2 ^ 47)

/-- The 48 bits that the shift leaves. -/
theorem nanoseconds_tmvToTimeInterval (time : Int) :
    nanoseconds (tmvToTimeInterval time) = time.bmod (2 ^ 48) := by
  simp only [nanoseconds, tmvToTimeInterval, int64, Int.bmod]
  omega

/-- A time is stored faithfully exactly if it is convertible. -/
theorem faithful_iff (time : Int) :
    Faithful time (tmvToTimeInterval time) ↔ Convertible time := by
  rw [Faithful, nanoseconds_tmvToTimeInterval, Convertible, nanoseconds, nanoseconds, Int.bmod]
  omega

/-! ## The data sets -/

/-- The data sets hold what the conversion makes of the times. -/
structure Stored (s : System) (times : Times) : Prop where
  offset : s.clock.cur.offsetFromMaster = tmvToTimeInterval times.offset
  delay : s.clock.cur.meanPathDelay = tmvToTimeInterval times.delay
  peerDelay : ∀ port, (s.ports port).peerMeanPathDelay = tmvToTimeInterval (times.peerDelay port)

variable {s : System} {times : Times}

/-- Without a new time, a data set keeps the earlier one. -/
theorem kept {interval time : Int} (stored : interval = tmvToTimeInterval time)
    (new : Option Int) :
    new.elim interval tmvToTimeInterval = tmvToTimeInterval (new.getD time) := by
  cases new with
  | none => exact stored
  | some time => rfl

/-- The correction for UTC leaves the data set alone. -/
theorem clockUtcCorrect_cur (ingress : Int) (c : Clock) :
    (clockUtcCorrect ingress c).2.cur = c.cur := by
  rcases clockUtcCorrect_cases ingress c with same | ⟨_, _, same⟩ <;> rw [same]

/-- A message down stores the offset that it yields, and nothing else. -/
theorem clockSynchronize_cur (ingress origin : Int) (state : ServoState)
    (ratio : Option (Int → Int)) (c : Clock) :
    (clockSynchronize ingress origin state ratio c).cur =
      { c.cur with
        offsetFromMaster := (producedOffset ingress origin c).elim c.cur.offsetFromMaster
          tmvToTimeInterval } := by
  rw [clockSynchronize, producedOffset]
  cases tsprocUpdateOffset (tsprocDownTs origin ingress c.tsproc) with
  | none => rfl
  | some offset =>
    dsimp only
    have same := clockUtcCorrect_cur ingress { c with
      ingressTs := ingress
      tsproc := tsprocDownTs origin ingress c.tsproc
      masterOffset := offset }
    generalize clockUtcCorrect ingress _ = corrected at same ⊢
    obtain ⟨suspended, corrected⟩ := corrected
    dsimp only at same ⊢
    split
    next => exact same
    next =>
      rw [← same]
      split
      next => rfl
      next => split <;> rfl

/-- A message up stores the delay that it yields, and nothing else. -/
theorem clockPathDelay_cur (req rx : Int) (c : Clock) :
    (clockPathDelay req rx c).cur =
      { c.cur with
        meanPathDelay := (producedDelay req rx c).elim c.cur.meanPathDelay tmvToTimeInterval } := by
  rw [clockPathDelay, producedDelay]
  cases tsprocUpdateDelay (tsprocUpTs req rx c.tsproc) <;> rfl

/-- An exchange with a peer stores the delay that it yields. -/
theorem portPeerDelay_stores (e : Exchange) (ratio : Option (Int → Int)) (p : Port) (c : Clock) :
    (portPeerDelay e ratio p c).1.peerMeanPathDelay =
      (producedPeerDelay e ratio p).elim p.peerMeanPathDelay tmvToTimeInterval := by
  rw [portPeerDelay, producedPeerDelay]
  cases tsprocUpdateDelay (peerTsproc e ratio p) with
  | none => rfl
  | some result =>
    dsimp only
    split <;> rfl

theorem portPeerDelay_cur (e : Exchange) (ratio : Option (Int → Int)) (p : Port) (c : Clock) :
    (portPeerDelay e ratio p c).2.cur = c.cur := by
  rw [portPeerDelay]
  cases tsprocUpdateDelay (peerTsproc e ratio p) with
  | none => rfl
  | some result =>
    dsimp only
    split <;> rfl

/-- A port changes, and what it reports with it. -/
theorem Stored.update (stored : Stored s times) (port : Nat) {p : Port} {time : Int}
    (reports : p.peerMeanPathDelay = tmvToTimeInterval time) :
    Stored { s with ports := Function.update s.ports port p }
      { times with peerDelay := Function.update times.peerDelay port time } where
  offset := stored.offset
  delay := stored.delay
  peerDelay other := by
    by_cases same : other = port
    · subst same
      simpa only [Function.update_self] using reports
    · simpa only [Function.update_of_ne same] using stored.peerDelay other

/-- The clock changes, and its data set with it. -/
theorem Stored.clock (stored : Stored s times) {c : Clock} {offset delay : Int}
    (offsetStored : c.cur.offsetFromMaster = tmvToTimeInterval offset)
    (delayStored : c.cur.meanPathDelay = tmvToTimeInterval delay) :
    Stored { s with clock := c } { times with offset, delay } :=
  ⟨offsetStored, delayStored, stored.peerDelay⟩

/-- Every event keeps the data sets up to date. -/
theorem Stored.step (stored : Stored s times) (event : Event) :
    Stored (step s event) (times.after s event) := by
  cases event with
  | sync ingress origin state ratio =>
    have cur := clockSynchronize_cur ingress origin state ratio s.clock
    refine stored.clock ?_ ?_
    · exact (congrArg CurrentDS.offsetFromMaster cur).trans (kept stored.offset _)
    · exact (congrArg CurrentDS.meanPathDelay cur).trans stored.delay
  | delay req rx =>
    have cur := clockPathDelay_cur req rx s.clock
    refine stored.clock ?_ ?_
    · exact (congrArg CurrentDS.offsetFromMaster cur).trans stored.offset
    · exact (congrArg CurrentDS.meanPathDelay cur).trans (kept stored.delay _)
  | peerDelay port e ratio =>
    have cur := portPeerDelay_cur e ratio (s.ports port) s.clock
    have reports := portPeerDelay_stores e ratio (s.ports port) s.clock
    have ports := stored.update port (reports.trans (kept (stored.peerDelay port) _))
    refine ports.clock ?_ ?_
    · exact (congrArg CurrentDS.offsetFromMaster cur).trans stored.offset
    · exact (congrArg CurrentDS.meanPathDelay cur).trans stored.delay
  | newBest => exact stored.clock stored.offset stored.delay
  | grandmaster flags => exact stored.clock rfl rfl
  | slave flags currentUtcOffset => exact stored.clock stored.offset stored.delay
  | portInitialize port => exact stored.update port rfl
  | portState port state =>
    have same := stored.update port (p := { s.ports port with state }) (stored.peerDelay port)
    rw [Function.update_eq_self] at same
    exact same

/-- In every run, the data sets hold what the conversion makes of the last times. -/
theorem run_stored (settings : Settings) (events : List Event) :
    Stored (run settings events).1 (run settings events).2 := by
  have all : ∀ (start : System × Times), Stored start.1 start.2 →
      Stored (events.foldl (fun (s, times) event => (step s event, times.after s event)) start).1
        (events.foldl (fun (s, times) event => (step s event, times.after s event)) start).2 := by
    induction events with
    | nil => exact fun _ stored => stored
    | cons event events inductionHypothesis =>
      intro start stored
      exact inductionHypothesis _ (stored.step event)
  exact all _ ⟨rfl, rfl, fun _ => rfl⟩

/-- In every run, each data set shows the last time that was produced for it exactly if that time
is convertible.

Proof: in every state of a run each data set holds the conversion of the last time that was produced
for it, since no function stores anything else there. The conversion is a shift to the left, which
wraps around in 64 bits for times that are not between `-2 ^ 47` and `2 ^ 47` nanoseconds. -/
theorem faithful_iff_convertible (settings : Settings) (events : List Event) :
    let (s, times) := run settings events
    (Faithful times.offset s.clock.cur.offsetFromMaster ↔ Convertible times.offset) ∧
      (Faithful times.delay s.clock.cur.meanPathDelay ↔ Convertible times.delay) ∧
      ∀ port, Faithful (times.peerDelay port) (s.ports port).peerMeanPathDelay ↔
        Convertible (times.peerDelay port) := by
  have stored := run_stored settings events
  dsimp only
  refine ⟨?_, ?_, ?_⟩
  · rw [stored.offset]
    exact faithful_iff _
  · rw [stored.delay]
    exact faithful_iff _
  · intro port
    rw [stored.peerDelay]
    exact faithful_iff _

/-- Settings of a clock that keeps the mean of ten delays. -/
def someSettings : Settings where
  mode := .filter
  delayFilter := .movingAverage (maveCreate 10)
  freeRunning := false
  utcTimescale := false
  realtime := false
  initialDelay := 0
  utcOffset := 37
  portMode _ := .filter
  portFilter _ := .movingAverage (maveCreate 10)
  asymmetry _ := 0

/-- A master that is 6000 times 2^48 nanoseconds ahead, more than 53 years, behind a path of 1000
nanoseconds. -/
def farMaster : List Event :=
  let ahead := 6000 * 2 ^ 48
  [.sync (2000000000 + 1000) (2000000000 + ahead) .unlocked none,
    .delay 3000000000 (3000000000 + ahead + 1000),
    .sync (4000000000 + 1000) (4000000000 + ahead) .unlocked none]

/-- Its offset is stored as zero. -/
theorem farMaster_shown_near :
    let (s, times) := run someSettings farMaster
    times.offset = -6000 * 2 ^ 48 ∧ s.clock.cur.offsetFromMaster = 0 ∧
      ¬ Faithful times.offset s.clock.cur.offsetFromMaster := by
  have produced : (run someSettings farMaster).2.offset = -6000 * 2 ^ 48 := by decide +kernel
  have stored : (run someSettings farMaster).1.clock.cur.offsetFromMaster = 0 := by decide +kernel
  dsimp only
  rw [produced, stored]
  exact ⟨rfl, rfl, by decide⟩

end LinuxPtp.TimestampProcessor
