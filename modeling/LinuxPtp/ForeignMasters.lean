import LinuxPtp.ClockState
import LinuxPtp.Election
import Mathlib.Data.List.DropRight

/-!
# Foreign masters

The announces that `port.c` keeps of every master heard, and the choice of the best one
among them. The newest announce of a master is the first in its list; announces are
removed from the other end when there are too many of them or when they are too old.
-/

namespace LinuxPtp

open RefPool Election

/-- `FOREIGN_MASTER_THRESHOLD`. -/
def foreignMasterThreshold : Nat := 2

/-- What `announce_compare` looks at. -/
def Announcement.compared (a : Announcement) :
    UInt8 × ClockQuality × UInt8 × ClockIdentity × UInt16 :=
  (a.grandmasterPriority1, a.grandmasterClockQuality, a.grandmasterPriority2,
    a.grandmasterIdentity, a.stepsRemoved)

/-- `announce_compare`: there is a difference. -/
def announceCompare (m1 m2 : PtpMessage) : Bool := m1.announce.compared ≠ m2.announce.compared

/-- The identity of a port. -/
def Clock.portIdentity (c : Clock) (p : Nat) : PortIdentity := ⟨c.clockIdentity, UInt16.ofNat p⟩

/-- `announce_to_dataset`. -/
def announceToDataset (c : Clock) (p : Nat) (m : PtpMessage) : Dataset where
  priority1 := m.announce.grandmasterPriority1
  identity := m.announce.grandmasterIdentity
  quality := m.announce.grandmasterClockQuality
  priority2 := m.announce.grandmasterPriority2
  localPriority := (c.setup p).localPriority
  stepsRemoved := m.announce.stepsRemoved
  sender := m.sourcePortIdentity
  receiver := c.portIdentity p

/-- `1 << distance` in 32 bits, the distance taken modulo 32. -/
def shiftOne (distance : Nat) : Int :=
  if distance % 32 = 31 then -2 ^ 31 else 2 ^ (distance % 32)

/-- For how long an announce counts, in nanoseconds. -/
def announceTimeout (logMessageInterval : Int) : Int :=
  if logMessageInterval < -63 then 0
  else if logMessageInterval > 31 then 2 ^ 63 - 1
  else if logMessageInterval < 0 then
    (4 * 1000000000 : Int).tdiv (shiftOne (-logMessageInterval).toNat)
  else 4 * shiftOne logMessageInterval.toNat * 1000000000

/-- `msg_current`. -/
def msgCurrent (m : PtpMessage) (now : Int) : Bool :=
  now - m.host < announceTimeout m.logMessageInterval

/-- `msg_source_equal`. -/
def msgSourceEqual (m : PtpMessage) (fc : ForeignClock) : Bool :=
  m.sourcePortIdentity = fc.dataset.sender

/-! ## Records -/

namespace ForeignClock

/-- Remove the oldest announce. -/
def dropLast (fc : ForeignClock) : ForeignClock :=
  { fc with
    messages := fc.messages.dropLast
    nMessages := fc.nMessages - 1
    counted := by simp [fc.counted] }

/-- Insert the newest announce. -/
def insert (m : Stored) (fc : ForeignClock) : ForeignClock :=
  { fc with
    messages := m :: fc.messages
    nMessages := fc.nMessages + 1
    counted := by simp [fc.counted] }

def withDataset (dataset : Dataset) (fc : ForeignClock) : ForeignClock :=
  { fc with dataset := dataset }

/-- The newest announce differs from the one before. -/
def changed (fc : ForeignClock) : Bool :=
  match fc.messages with
  | m :: tmp :: _ => announceCompare m.msg tmp.msg
  | _ => false

end ForeignClock

/-- Remove the oldest announce and put it. -/
def fcDropLast : ForeignClock × ClockState → ForeignClock × ClockState
  | (fc, s) =>
    match fc.messages.getLast? with
    | none => (fc, s)
    | some m => (fc.dropLast, s.put m.cell)

/-- `fc_clear`: the loop runs as often as `n_messages` says. -/
def fcClear (fc : ForeignClock) (s : ClockState) : ForeignClock × ClockState :=
  fcDropLast^[fc.nMessages] (fc, s)

/-- The second loop of `fc_prune`, up to the first announce from the end that counts. -/
def fcExpire (now : Int) (fc : ForeignClock) (s : ClockState) : ForeignClock × ClockState :=
  fcDropLast^[(fc.messages.reverse.takeWhile fun m => !msgCurrent m.msg now).length] (fc, s)

/-- `fc_prune`. -/
def fcPrune (now : Int) (fc : ForeignClock) (s : ClockState) : ForeignClock × ClockState :=
  let (fc, s) := fcDropLast^[fc.nMessages - foreignMasterThreshold] (fc, s)
  fcExpire now fc s

/-- A message is kept as the newest announce. -/
def fcInsert (m : Stored) (fc : ForeignClock) (s : ClockState) : ForeignClock × ClockState :=
  (fc.insert m, s.get m.cell)

namespace Port

/-- Put a record back into its place. -/
def withForeign (fc : ForeignClock) (port : Port) : Port :=
  { port with
    foreignMasters := port.foreignMasters.map fun other => if other.id = fc.id then fc else other }

/-- The record of the best foreign master. -/
def bestForeign (port : Port) : Option ForeignClock :=
  port.best.bind fun id => port.foreignMasters.find? fun fc => fc.id = id

end Port

/-! ## Announces -/

section Announces

variable (c : Clock) (a : Answers)

/-- A foreign master heard for the first time; this announce is not counted. -/
def newForeignMaster (p : Nat) (m : PtpMessage) (s : ClockState) : ClockState :=
  let zero : ClockIdentity := Vector.replicate 8 0
  let blank : Dataset := ⟨0, zero, ⟨0, 0, 0⟩, 0, 0, 0, m.sourcePortIdentity, ⟨zero, 0⟩⟩
  let s := s.withPort p fun port =>
    { port with foreignMasters := { id := s.nextForeign, dataset := blank } :: port.foreignMasters }
  { s with nextForeign := s.nextForeign + 1 }

/-- `add_foreign_master`. -/
def addForeignMaster (p : Nat) (m : Stored) (s : ClockState) : Bool × ClockState :=
  match (s.ports p).foreignMasters.find? (msgSourceEqual m.msg) with
  | none => (false, newForeignMaster p m.msg s)
  | some fc =>
    let (fc, s) := fcPrune (a.pruned fc.id) fc s
    let brokeThreshold := fc.nMessages = foreignMasterThreshold - 1
    let (fc, s) := fcInsert m fc s
    (brokeThreshold || fc.changed, s.withPort p (Port.withForeign fc))

/-- A timer is set. -/
def setTmo (p : Nat) (fd : Descriptor) (s : ClockState) : ClockState :=
  s.withRunning p fun running => { running with timers := Function.update running.timers fd true }

/-- `port_clr_tmo`. -/
def clrTmo (p : Nat) (fd : Descriptor) (s : ClockState) : ClockState :=
  s.withRunning p fun running => { running with timers := Function.update running.timers fd false }

/-- `clock_update_time_properties` with what an announce says of the time. -/
def timePropertiesOf (m : PtpMessage) : TimeProperties :=
  ⟨m.announce.currentUtcOffset, m.timeFlags, m.announce.timeSource⟩

/-- `update_current_master`. If the best foreign master were missing, the code would read
where there is none. -/
def updateCurrentMaster (p : Nat) (m : Stored) (s : ClockState) : Bool × ClockState :=
  match (s.ports p).bestForeign with
  | none => (false, s.note (.strayed p))
  | some fc =>
    if !msgSourceEqual m.msg fc then addForeignMaster a p m s else
      let s := if (s.ports p).state ≠ .passive then { s with tds := timePropertiesOf m.msg } else s
      let s := if (c.setup p).pathTraceEnabled then { s with path := m.msg.suffix.cid } else s
      let s := setTmo p .announceTimer s
      let (fc, s) := fcPrune (a.pruned fc.id) fc s
      let (fc, s) := fcInsert m fc s
      (fc.changed, s.withPort p (Port.withForeign fc))

/-- An announce was accepted, with the supplied report. -/
def ClockState.hear (p : Nat) (m : PtpMessage) (report : Bool) (s : ClockState) : ClockState :=
  { s with
    heard := Function.update s.heard p (Function.update (s.heard p) m.sourcePortIdentity (some m))
    reported := Function.update s.reported p (s.reported p || report) }

/-- `process_announce`. -/
def processAnnounce (p : Nat) (m : Stored) (s : ClockState) : Bool × ClockState :=
  if m.msg.announce.stepsRemoved ≥ 255 then (false, s) else
    match (s.ports p).state with
    | .initializing | .faulty | .disabled => (false, s)
    | .listening | .preMaster | .master | .grandMaster =>
      let (result, s) := addForeignMaster a p m s
      (result, s.hear p m.msg result)
    | .passive | .uncalibrated | .slave =>
      let (result, s) := updateCurrentMaster c a p m s
      (result, s.hear p m.msg result)

/-- `fc_clear` of the best foreign master, if there is one. -/
def clearBest (p : Nat) (s : ClockState) : ClockState :=
  match (s.ports p).bestForeign with
  | none => s
  | some fc =>
    let (fc, s) := fcClear fc s
    s.withPort p (Port.withForeign fc)

/-- `free_foreign_masters`. -/
def freeForeignMasters (p : Nat) (s : ClockState) : ClockState :=
  let s := (s.ports p).foreignMasters.foldl (fun s fc => (fcClear fc s).2) s
  s.withPort p fun port => { port with foreignMasters := [] }

/-! ## The best one -/

/-- `clock_dscmp`. -/
def Clock.dscmp (c : Clock) : Option Dataset → Option Dataset → Int :=
  if c.telecom then telecomDscmp c.order else LinuxPtp.dscmp c.order

/-- The comparison of two records. -/
def Clock.compareForeign (c : Clock) (fc best : ForeignClock) : Int :=
  c.dscmp (some fc.dataset) (some best.dataset)

/-- The body of the loop in `port_compute_best`: the best so far, and the record. -/
def considerForeign (p : Nat) (best : Option ForeignClock) (fc : ForeignClock) (s : ClockState) :
    Option ForeignClock × ForeignClock × ClockState :=
  match fc.messages.head? with
  | none => (best, fc, s)
  | some tmp =>
    let fc := fc.withDataset (announceToDataset c p tmp.msg)
    let (fc, s) := fcPrune (a.pruned fc.id) fc s
    if fc.nMessages < foreignMasterThreshold then (best, fc, s) else
      match best with
      | none => (some fc, fc, s)
      | some top =>
        if c.compareForeign fc top > 0 then (some fc, fc, s) else
          let (fc, s) := fcClear fc s
          (some top, fc, s)

/-- The loop in `port_compute_best`. -/
def considerAll (p : Nat) : Option ForeignClock → List ForeignClock → ClockState →
    Option ForeignClock × List ForeignClock × ClockState
  | best, [], s => (best, [], s)
  | best, fc :: rest, s =>
    let (best, fc, s) := considerForeign c a p best fc s
    let (best, rest, s) := considerAll p best rest s
    (best, fc :: rest, s)

/-- `port_compute_best`. -/
def portComputeBest (p : Nat) (s : ClockState) : Option ForeignClock × ClockState :=
  if (c.setup p).masterOnly then (none, s.withPort p fun port => { port with best := none }) else
    let (best, foreignMasters, s) := considerAll c a p none (s.ports p).foreignMasters s
    (best, s.withPort p fun port =>
      { port with foreignMasters := foreignMasters, best := best.map ForeignClock.id })

/-- The record found on a port, compared with the best so far. -/
def keepBest (p : Nat) (best : Option Best) (found : Option ForeignClock) : Option Best :=
  match found with
  | none => best
  | some fc =>
    match best with
    | none => some ⟨p, fc.id, fc.dataset⟩
    | some top =>
      if c.dscmp (some fc.dataset) (some top.dataset) > 0 then some ⟨p, fc.id, fc.dataset⟩
      else some top

/-- The first loop of `handle_state_decision_event`. -/
def electBest (ports : List Nat) (s : ClockState) : Option Best × ClockState :=
  ports.foldl (fun (best, s) p =>
    let (found, s) := portComputeBest c a p s
    (keepBest c p best found, s)) (none, s)

end Announces

end LinuxPtp
