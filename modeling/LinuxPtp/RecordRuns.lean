import LinuxPtp.AnnounceWindow
import LinuxPtp.MessageCounts
import LinuxPtp.Runs

/-!
# The announces in the records

Whatever happens to a port, the announces of a record are some of the newest that came, the newest
first, and one more than the threshold at most. Every announce of a record comes from the record
before, except for the one that has arrived.

The list of a record is compared with the announces that came, newest first. That times do not go
back is the condition on the run, and nothing else is asked of it.
-/

namespace LinuxPtp

open RefPool

/-! ## What happens to a port -/

/-- What touches the foreign masters of a port: an announce, the state decision, the announce
timeout, and disabling the port. Its state may change at any time. -/
inductive RecordEvent where
  | announce (a : Answers) (m : Stored)
  | decide (a : Answers)
  | lapse
  | disable
  | become (state : PortState)

namespace RecordEvent

/-- The announce that arrives. -/
def arrived : RecordEvent → Option Stored
  | .announce _ m => some m
  | _ => none

/-- The time of the last arrival. -/
def latest (time : Int) (event : RecordEvent) : Int := event.arrived.elim time (·.msg.host)

/-- An announce does not arrive before the ones that arrived before it. -/
def InTime (time : Int) (event : RecordEvent) : Prop := ∀ m ∈ event.arrived, time ≤ m.msg.host

end RecordEvent

/-- One thing that happens to a port. -/
def recordStep (c : Clock) (p : Nat) (s : ClockState) : RecordEvent → ClockState
  | .announce a m => (processAnnounce c a p m s).2
  | .decide a => (portComputeBest c a p s).2
  | .lapse => clearBest p s
  | .disable => abandon p s
  | .become state => s.withPort p fun port => { port with state := state }

/-! ## Where announces come from -/

/-- The announces of a record come from a record before, and from what arrived. -/
inductive Comes (before : List ForeignClock) (arrived : Option Stored) (fc : ForeignClock) :
    Prop where
  | blank (empty : fc.messages = [])
  | kept (old : ForeignClock) (member : old ∈ before) (part : fc.messages <+: old.messages)
  | grown (old : ForeignClock) (member : old ∈ before) (now : Int) (m : Stored)
    (given : arrived = some m) (grows : fc.messages = m :: old.fresh now)

section Comes

variable {c : Clock} {a : Answers} {s : ClockState} {p : Nat} {arrived : Option Stored}

/-- Pruning takes the oldest messages away, so what is left is a part of the list from its
beginning. -/
theorem fresh_part (now : Int) (fc : ForeignClock) : fc.fresh now <+: fc.messages :=
  (List.rdropWhile_prefix _ _).trans (List.take_prefix _ _)

theorem fresh_length (now : Int) (fc : ForeignClock) :
    (fc.fresh now).length ≤ foreignMasterThreshold :=
  (List.rdropWhile_prefix _ _).length_le.trans (List.length_take_le _ _)

theorem comes_refl {before : List ForeignClock} {fc : ForeignClock} (member : fc ∈ before) :
    Comes before arrived fc := .kept fc member (List.prefix_refl _)

/-- A record that is put back is one of the records, or the others stay. -/
theorem mem_withForeign {port : Port} {fc changed : ForeignClock}
    (member : fc ∈ (port.withForeign changed).foreignMasters) :
    fc ∈ port.foreignMasters ∨ fc = changed := by
  obtain ⟨old, listed, same⟩ := List.mem_map.mp member
  split at same
  next => exact Or.inr same.symm
  next => exact Or.inl (same ▸ listed)

/-- An announce is inserted into a record that was pruned. -/
theorem inserted_comes {m : Stored} {old : ForeignClock} (t : ClockState) (now : Int)
    (ports : (t.ports p).foreignMasters = (s.ports p).foreignMasters)
    (listed : old ∈ (s.ports p).foreignMasters) :
    ∀ fc ∈ (((fcInsert m (fcPrune now old t).1 (fcPrune now old t).2).2.withPort p
        (Port.withForeign (fcInsert m (fcPrune now old t).1 (fcPrune now old t).2).1)).ports
          p).foreignMasters,
      Comes (s.ports p).foreignMasters (some m) fc := by
  intro fc member
  obtain ⟨msgs, state⟩ := fcPrune_state now old t
  rw [withPort_same] at member
  rcases mem_withForeign member with other | rfl
  · have same : ((fcInsert m (fcPrune now old t).1 (fcPrune now old t).2).2.ports p).foreignMasters =
        (t.ports p).foreignMasters := by
      rw [state]
      rfl
    exact comes_refl (ports ▸ same ▸ other)
  · refine .grown old listed now m rfl ?_
    rw [fcPrune_record]
    rfl

/-- Recording a message puts it in front of what is left of its record, opens a record for it or
leaves the records alone. -/
theorem addForeignMaster_comes (m : Stored) :
    ∀ fc ∈ ((addForeignMaster a p m s).2.ports p).foreignMasters,
      Comes (s.ports p).foreignMasters (some m) fc := by
  unfold addForeignMaster
  split
  next =>
    intro fc member
    simp only [newForeignMaster, withPort_same, List.mem_cons] at member
    rcases member with rfl | old
    · exact .blank rfl
    · exact comes_refl old
  next old found =>
    exact inserted_comes s (a.pruned old.id) rfl (List.mem_of_find?_eq_some found)

/-- A message of the current master goes in front of what is left of its record. -/
theorem updateCurrentMaster_comes (m : Stored) :
    ∀ fc ∈ ((updateCurrentMaster c a p m s).2.ports p).foreignMasters,
      Comes (s.ports p).foreignMasters (some m) fc := by
  unfold updateCurrentMaster
  split
  next => exact fun fc member => comes_refl member
  next old found =>
    split
    · exact addForeignMaster_comes m
    · refine inserted_comes _ (a.pruned old.id) ?_ (bestForeign_mem found)
      unfold setTmo
      rw [withRunning_same]
      dsimp only
      split <;> split <;> rfl

/-- A processed announce reaches one record at most, as the newest of its messages. -/
theorem processAnnounce_comes (m : Stored) :
    ∀ fc ∈ ((processAnnounce c a p m s).2.ports p).foreignMasters,
      Comes (s.ports p).foreignMasters (some m) fc := by
  unfold processAnnounce
  split
  · exact fun fc member => comes_refl member
  split
  · exact fun fc member => comes_refl member
  · exact fun fc member => comes_refl member
  · exact fun fc member => comes_refl member
  all_goals first
    | exact addForeignMaster_comes m
    | exact updateCurrentMaster_comes m

/-- A record that is considered loses announces at the old end only. -/
theorem considerForeign_comes (best : Option ForeignClock) (old : ForeignClock) :
    (considerForeign c a p best old s).2.1.messages <+: old.messages := by
  unfold considerForeign
  split
  next => exact List.prefix_refl _
  next tmp _ =>
    have pruned := fcPrune_record (a.pruned old.id)
      (old.withDataset (announceToDataset c p tmp.msg)) s
    have part : (fcPrune (a.pruned old.id)
        (old.withDataset (announceToDataset c p tmp.msg)) s).1.messages <+: old.messages := by
      rw [pruned]
      exact fresh_part _ _
    dsimp only [ForeignClock.withDataset] at part ⊢
    split
    · exact part
    · cases best with
      | none => exact part
      | some top =>
        dsimp only
        split
        · exact part
        · rw [fcClear_record]
          exact (List.take_prefix _ _).trans part

/-- An election shortens records and adds no message, by induction on the list. -/
theorem considerAll_comes (best : Option ForeignClock) (list : List ForeignClock)
    (s : ClockState) : ∀ fc ∈ (considerAll c a p best list s).2.1, Comes list arrived fc := by
  induction list generalizing best s with
  | nil => exact fun fc member => absurd member List.not_mem_nil
  | cons old rest inductionHypothesis =>
    intro fc member
    rcases List.mem_cons.mp member with rfl | later
    · exact .kept old List.mem_cons_self (considerForeign_comes best old)
    · cases inductionHypothesis _ _ fc later with
      | blank empty => exact .blank empty
      | kept other listed part => exact .kept other (List.mem_cons_of_mem _ listed) part
      | grown other listed now m given grows =>
        exact .grown other (List.mem_cons_of_mem _ listed) now m given grows

theorem portComputeBest_comes :
    ∀ fc ∈ ((portComputeBest c a p s).2.ports p).foreignMasters,
      Comes (s.ports p).foreignMasters arrived fc := by
  unfold portComputeBest
  split
  · intro fc member
    rw [withPort_same] at member
    exact comes_refl member
  · intro fc member
    dsimp only at member
    rw [withPort_same] at member
    exact considerAll_comes none _ s fc member

theorem clearBest_comes :
    ∀ fc ∈ ((clearBest p s).ports p).foreignMasters, Comes (s.ports p).foreignMasters arrived fc := by
  unfold clearBest
  split
  next => exact fun fc member => comes_refl member
  next old _ =>
    intro fc member
    obtain ⟨msgs, state⟩ := fcClear_state old s
    dsimp only at member
    rw [withPort_same] at member
    rcases mem_withForeign member with other | rfl
    · rw [state] at other
      exact comes_refl other
    · refine .blank ?_
      rw [fcClear_record]
      rfl

/-- Whatever happens at a port, each record is one of those before, shortened, with the announce
that arrived in front of it or without. -/
theorem recordStep_comes (event : RecordEvent) :
    ∀ fc ∈ ((recordStep c p s event).ports p).foreignMasters,
      Comes (s.ports p).foreignMasters event.arrived fc := by
  cases event with
  | announce a m => exact processAnnounce_comes m
  | decide a => exact portComputeBest_comes
  | lapse => exact clearBest_comes
  | disable =>
    intro fc member
    simp only [recordStep, abandon, freeForeignMasters, withPort_same, List.not_mem_nil] at member
  | become state =>
    intro fc member
    simp only [recordStep, withPort_same] at member
    exact comes_refl member

end Comes

/-! ## Runs -/

/-- Announces that came by a time, newest first, one more than the threshold at most. -/
structure KeptAnnounces (time : Int) (messages : List Stored) : Prop where
  bounded : messages.length ≤ foreignMasterThreshold + 1
  newestFirst : messages.Pairwise fun newer older => older.msg.host ≤ newer.msg.host
  past : ∀ m ∈ messages, m.msg.host ≤ time

section Runs

variable {time : Int} {messages : List Stored}

/-- What was kept in time is so after the oldest messages are gone. -/
theorem KeptAnnounces.part (kept : KeptAnnounces time messages) {fewer : List Stored}
    (part : fewer <+: messages) : KeptAnnounces time fewer :=
  ⟨part.length_le.trans kept.bounded, kept.newestFirst.sublist part.sublist,
    fun m member => kept.past m (part.subset member)⟩

/-- Time goes on. -/
theorem KeptAnnounces.later (kept : KeptAnnounces time messages) {later : Int}
    (after : time ≤ later) : KeptAnnounces later messages :=
  ⟨kept.bounded, kept.newestFirst, fun m member => (kept.past m member).trans after⟩

/-- A newer message comes to the front; the threshold bounds how many there are with it. -/
theorem KeptAnnounces.cons (kept : KeptAnnounces time messages) {m : Stored}
    (few : messages.length ≤ foreignMasterThreshold) (after : time ≤ m.msg.host) :
    KeptAnnounces m.msg.host (m :: messages) := by
  refine ⟨Nat.succ_le_succ few, ?_, ?_⟩
  · exact List.pairwise_cons.mpr
      ⟨fun older member => (kept.past older member).trans after, kept.newestFirst⟩
  · exact List.forall_mem_cons.mpr ⟨Int.le_refl _, (kept.later after).past⟩

/-- All records of a port are kept so. -/
def RecordsKept (p : Nat) (time : Int) (s : ClockState) : Prop :=
  ∀ fc ∈ (s.ports p).foreignMasters, KeptAnnounces time fc.messages

/-- One event in its time keeps the messages of all records in their order and in number. -/
theorem recordStep_kept {c : Clock} {p : Nat} {s : ClockState} {event : RecordEvent}
    (kept : RecordsKept p time s) (inTime : event.InTime time) :
    RecordsKept p (event.latest time) (recordStep c p s event) := by
  have after : time ≤ event.latest time := by
    unfold RecordEvent.latest
    cases given : event.arrived with
    | none => exact Int.le_refl _
    | some m => exact inTime m given
  intro fc member
  cases recordStep_comes event fc member with
  | blank empty =>
    rw [empty]
    exact ⟨Nat.zero_le _, List.Pairwise.nil, fun m absent => absurd absent List.not_mem_nil⟩
  | kept old listed part => exact ((kept old listed).part part).later after
  | grown old listed now m given grows =>
    have latest : event.latest time = m.msg.host := by rw [RecordEvent.latest, given]; rfl
    rw [latest, grows]
    exact ((kept old listed).part (fresh_part now old)).cons (fresh_length now old) (inTime m given)

/-- So does every run of events in their time, by induction on the run. -/
theorem recordRun_kept {c : Clock} {p : Nat} {s : ClockState} {events : List RecordEvent}
    (kept : RecordsKept p time s)
    (timely : Runs.Along RecordEvent.latest RecordEvent.InTime time events) :
    RecordsKept p (events.foldl RecordEvent.latest time) (events.foldl (recordStep c p) s) := by
  induction events generalizing time s with
  | nil => exact kept
  | cons event events inductionHypothesis =>
    obtain ⟨inTime, later⟩ := timely
    exact inductionHypothesis (recordStep_kept kept inTime) later

/-- In every run the announces of a record are counted, newest first, and one more than the
threshold at most; and pruning a record leaves exactly the announces that are younger than four of
their intervals if and only if they are judged rightly.

Proof: the announces of a record come in order of their times, so that those that are too old are
the last ones. The code takes them off from the end, as long as there are too many or the last one
is too old by its own interval, which need not be that of the newer ones. -/
theorem records_current {c : Clock} {p : Nat} {s : ClockState} {events : List RecordEvent}
    (bare : (s.ports p).foreignMasters = [])
    (timely : Runs.Along RecordEvent.latest RecordEvent.InTime time events) :
    ∀ fc ∈ ((events.foldl (recordStep c p) s).ports p).foreignMasters,
      fc.nMessages = fc.messages.length ∧ fc.messages.length ≤ foreignMasterThreshold + 1 ∧
      fc.messages.Pairwise (fun newer older => older.msg.host ≤ newer.msg.host) ∧
      ∀ now, events.foldl RecordEvent.latest time ≤ now → ∀ t : ClockState,
        (PrunedRight now fc.messages (fcPrune now fc t).1.messages ↔ Judged now fc.messages) := by
  intro fc member
  have start : RecordsKept p time s := by
    intro fc member
    rw [bare] at member
    cases member
  have kept := recordRun_kept (c := c) start timely fc member
  refine ⟨fc.counted, kept.bounded, kept.newestFirst, fun now after t => ?_⟩
  exact pruned_right (fun m listed => (kept.past m listed).trans after) t

end Runs

/-- An announce of one master at a time, with a log interval. -/
def announceAt (cell : Nat) (log seconds : Int) : Stored :=
  ⟨cell, { announceFrom 5 with logMessageInterval := log, host := seconds * 1000000000 }⟩

/-- A port that listens gets three announces; the first is not counted, the second is sent for a
long interval. -/
def longThenShort : List RecordEvent :=
  [.become .listening, .announce {} (announceAt 0 4 0), .announce {} (announceAt 1 4 1),
    .announce { pruned := fun _ => 2000000000 } (announceAt 2 0 2)]

theorem longThenShort_timely :
    Runs.Along RecordEvent.latest RecordEvent.InTime 0 longThenShort := by
  refine ⟨fun m absent => (by cases absent), ?_, ?_, ?_, trivial⟩ <;>
  · intro m given
    obtain rfl := Option.some.inj given
    decide

theorem records_current_longThenShort :
    ((hearing [] []).ports 1).foreignMasters = [] ∧
      Runs.Along RecordEvent.latest RecordEvent.InTime 0 longThenShort ∧
      ∀ fc ∈ ((longThenShort.foldl (recordStep smallClock 1) (hearing [] [])).ports 1).foreignMasters,
        ∀ now, 2000000000 ≤ now →
          (PrunedRight now fc.messages (fcPrune now fc (hearing [] [])).1.messages ↔
            Judged now fc.messages) := by
  refine ⟨rfl, longThenShort_timely, fun fc member now after => ?_⟩
  exact (records_current rfl longThenShort_timely fc member).2.2.2 now after _

/-- Eight seconds after the last announce, which counts for four, it is still kept, since the one
before it counts for sixty-four. -/
theorem records_outdated :
    ∃ fc ∈ ((longThenShort.foldl (recordStep smallClock 1) (hearing [] [])).ports 1).foreignMasters,
      fc.messages = [announceAt 2 0 2, announceAt 1 4 1] ∧
      ¬ PrunedRight 10000000000 fc.messages
        (fcPrune 10000000000 fc (hearing [] [])).1.messages := by
  have records : ((longThenShort.foldl (recordStep smallClock 1)
      (hearing [] [])).ports 1).foreignMasters.map ForeignClock.messages =
      [[announceAt 2 0 2, announceAt 1 4 1]] := by decide
  obtain ⟨fc, member, messages⟩ : ∃ fc ∈ ((longThenShort.foldl (recordStep smallClock 1)
      (hearing [] [])).ports 1).foreignMasters,
      fc.messages = [announceAt 2 0 2, announceAt 1 4 1] :=
    List.mem_map.mp (records ▸ List.mem_singleton_self _)
  refine ⟨fc, member, messages, fun right => ?_⟩
  have kept : (fcPrune 10000000000 fc (hearing [] [])).1.messages =
      [announceAt 2 0 2, announceAt 1 4 1] := by
    rw [fcPrune_record]
    exact (fresh_two messages).trans (if_pos (by decide))
  have young := right.left (announceAt 2 0 2) (by rw [kept]; exact List.mem_cons_self)
  have log : (announceAt 2 0 2).msg.logMessageInterval = (0 : Nat) := rfl
  have late := (young_nonneg log).mp young
  revert late
  decide

end LinuxPtp
