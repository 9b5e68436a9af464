import LinuxPtp.ClockSync

/-!
# Leap seconds around midnight

A master announces a leap second with the offset of UTC before it, and from some instant on no
leap second with the offset after it. Its update may come before or after midnight. The queries of
`leap_second_status` carry the status of the one before.

The status is given up in the six hours after midnight and at no other time. A run of queries that
pauses over these hours keeps it for the rest of the day.
-/

namespace LinuxPtp

/-- A leap second at a midnight, as a master announces it. -/
structure LeapEvent where
  leap : Int
  /-- The offset of UTC before the leap second. -/
  utcOffset : Int
  midnight : Nat
  /-- From when on the master announces no leap second and the offset after it. -/
  update : Nat
  single : leap = 1 ∨ leap = -1
  daily : ∃ days, 0 < days ∧ midnight = days * nsPerDay
  timely : update ≤ midnight + 6 * nsPerHour

/-- What a query comes to. -/
structure LeapAnswer where
  time : Nat
  status : Int
  utcOffset : Int
deriving DecidableEq

namespace LeapEvent

variable (e : LeapEvent)

/-- The leap that the master announces. -/
def announcedLeap (time : Nat) : Int := if time < e.update then e.leap else 0

/-- The offset of UTC that the master announces. -/
def announcedOffset (time : Nat) : Int :=
  if time < e.update then e.utcOffset else e.utcOffset + e.leap

/-- One query, with the status of the one before. -/
def answer (leapSet : Int) (time : Nat) : LeapAnswer :=
  let (status, _, utcOffset) :=
    leapSecondStatus time leapSet (e.announcedLeap time) (e.announcedOffset time)
  ⟨time, status, utcOffset⟩

/-- The queries at the supplied times, each with the status of the one before. -/
def answers : Int → List Nat → List LeapAnswer
  | _, [] => []
  | leapSet, time :: times => e.answer leapSet time :: answers (e.answer leapSet time).status times

/-- The leap second takes effect at midnight. -/
def Right (a : LeapAnswer) : Prop :=
  if a.time < e.midnight then a.utcOffset = e.utcOffset ∧ a.status = e.leap
  else a.utcOffset = e.utcOffset + e.leap ∧ a.status = 0

instance (a : LeapAnswer) : Decidable (e.Right a) := inferInstanceAs (Decidable (ite ..))

/-- The queries from half a day before midnight to the end of the day. If the master is early, some
query has seen its announcement. -/
structure Watched (times : List Nat) : Prop where
  ordered : times.Pairwise (· ≤ ·)
  near : ∀ time ∈ times, e.midnight - 12 * nsPerHour ≤ time ∧ time < e.midnight + nsPerDay
  seen : e.update < e.midnight → ∃ time ∈ times, time < e.update

/-- The queries do not pause from before midnight until more than six hours after it. -/
def Attended (times : List Nat) : Prop :=
  (∃ time ∈ times, time < e.midnight) → (∃ time ∈ times, e.midnight ≤ time) →
    ∃ time ∈ times, e.midnight ≤ time ∧ time ≤ e.midnight + 6 * nsPerHour

section Queries

variable {e} {leapSet : Int} {time : Nat} {times : List Nat}

theorem leap_ne_zero : e.leap ≠ 0 := by
  rcases e.single with plus | minus <;> omega

/-! ## The time of day -/

theorem evening (near : e.midnight - 12 * nsPerHour ≤ time) (before : time < e.midnight) :
    6 * nsPerHour < time % nsPerDay := by
  obtain ⟨days, positive, midnight⟩ := e.daily
  simp only [nsPerDay, nsPerHour, nsPerSec] at *
  omega

theorem night (after : e.midnight ≤ time) (soon : time ≤ e.midnight + 6 * nsPerHour) :
    ¬ 6 * nsPerHour < time % nsPerDay := by
  obtain ⟨days, positive, midnight⟩ := e.daily
  simp only [nsPerDay, nsPerHour, nsPerSec] at *
  omega

theorem morning (late : e.midnight + 6 * nsPerHour < time) (near : time < e.midnight + nsPerDay) :
    6 * nsPerHour < time % nsPerDay := by
  obtain ⟨days, positive, midnight⟩ := e.daily
  simp only [nsPerDay, nsPerHour, nsPerSec] at *
  omega

/-! ## One query -/

/-- By day a status that is set stays, whatever is announced. -/
theorem answer_kept (day : 6 * nsPerHour < time % nsPerDay) :
    e.answer e.leap time = ⟨time, e.leap, e.utcOffset⟩ := by
  have some := @leap_ne_zero e
  unfold answer announcedLeap announcedOffset leapSecondStatus
  by_cases early : time < e.update
  · simp [day, early, some]
  · simp [day, early, some]

/-- By day a status that is not set is taken from the announcement. -/
theorem answer_taken (day : 6 * nsPerHour < time % nsPerDay) :
    e.answer 0 time = ⟨time, e.announcedLeap time, e.announcedOffset time⟩ := by
  unfold answer leapSecondStatus
  by_cases none : e.announcedLeap time = 0 <;> simp [day, none]

/-- After midnight the status is given up, whatever is announced. -/
theorem answer_dropped (early : ¬ 6 * nsPerHour < time % nsPerDay) :
    e.answer leapSet time = ⟨time, 0, e.utcOffset + e.leap⟩ := by
  have some := @leap_ne_zero e
  unfold answer announcedLeap announcedOffset leapSecondStatus
  by_cases set : leapSet = 0 <;> by_cases before : time < e.update <;> simp [early, set, before, some]

/-! ## Runs of queries -/

/-- After midnight a status that is not set stays so. -/
theorem passed_right (after : ∀ time ∈ times, e.midnight ≤ time ∧ time < e.midnight + nsPerDay) :
    ∀ a ∈ e.answers 0 times, e.Right a := by
  induction times with
  | nil => exact fun a member => absurd member List.not_mem_nil
  | cons time times inductionHypothesis =>
    obtain ⟨⟨low, high⟩, others⟩ := List.forall_mem_cons.mp after
    have gone : e.answer 0 time = ⟨time, 0, e.utcOffset + e.leap⟩ := by
      by_cases soon : time ≤ e.midnight + 6 * nsPerHour
      · exact answer_dropped (night low soon)
      · have announced : ¬ time < e.update := by
          have timely := e.timely
          omega
        rw [answer_taken (morning (Nat.lt_of_not_le soon) high)]
        simp only [announcedLeap, announcedOffset, if_neg announced]
    unfold answers
    rw [gone]
    refine List.forall_mem_cons.mpr ⟨?_, inductionHypothesis others⟩
    unfold Right
    rw [if_neg (Nat.not_lt.mpr low)]
    exact ⟨rfl, rfl⟩

/-- With the status set, all depends on the first query after midnight. -/
theorem pending_right (ordered : times.Pairwise (· ≤ ·))
    (near : ∀ time ∈ times, e.midnight - 12 * nsPerHour ≤ time ∧ time < e.midnight + nsPerDay) :
    (∀ a ∈ e.answers e.leap times, e.Right a) ↔ ((∃ time ∈ times, e.midnight ≤ time) →
      ∃ time ∈ times, e.midnight ≤ time ∧ time ≤ e.midnight + 6 * nsPerHour) := by
  induction times with
  | nil => simp [answers]
  | cons time times inductionHypothesis =>
    obtain ⟨first, rest⟩ := List.pairwise_cons.mp ordered
    obtain ⟨⟨low, high⟩, others⟩ := List.forall_mem_cons.mp near
    unfold answers
    rw [List.forall_mem_cons]
    by_cases before : time < e.midnight
    · have kept : e.answer e.leap time = ⟨time, e.leap, e.utcOffset⟩ :=
        answer_kept (evening low before)
      have right : e.Right ⟨time, e.leap, e.utcOffset⟩ := by
        unfold Right
        rw [if_pos before]
        exact ⟨rfl, rfl⟩
      have early : ¬ e.midnight ≤ time := Nat.not_le.mpr before
      simp only [kept, right, true_and, List.exists_mem_cons_iff, early, false_and, false_or]
      exact inductionHypothesis rest others
    · have after : e.midnight ≤ time := Nat.le_of_not_lt before
      have later : ∀ other ∈ times, e.midnight ≤ other ∧ other < e.midnight + nsPerDay :=
        fun other member => ⟨after.trans (first other member), (others other member).2⟩
      by_cases soon : time ≤ e.midnight + 6 * nsPerHour
      · refine iff_of_true ?_ fun _ => ⟨time, List.mem_cons_self, after, soon⟩
        rw [answer_dropped (night after soon)]
        refine ⟨?_, passed_right later⟩
        unfold Right
        rw [if_neg before]
        exact ⟨rfl, rfl⟩
      · -- The status is still there, and every later query is as late.
        refine iff_of_false ?_ ?_
        · rintro ⟨right, _⟩
          unfold Right at right
          rw [answer_kept (morning (Nat.lt_of_not_le soon) high), if_neg before] at right
          exact leap_ne_zero right.2
        · intro attended
          obtain ⟨other, member, _, timely⟩ := attended ⟨time, List.mem_cons_self, after⟩
          rcases List.mem_cons.mp member with rfl | member
          · exact soon timely
          · exact soon ((first other member).trans timely)

/-- The first query before midnight comes before the master's update. -/
theorem Watched.announced (watched : e.Watched (time :: times)) (before : time < e.midnight) :
    time < e.update := by
  by_cases early : e.update < e.midnight
  · obtain ⟨other, member, seen⟩ := watched.seen early
    rcases List.mem_cons.mp member with rfl | member
    · exact seen
    · exact Nat.lt_of_le_of_lt ((List.pairwise_cons.mp watched.ordered).1 other member) seen
  · omega

end Queries

end LeapEvent

/-- A run of queries around midnight has the offset and the status before the leap second up to
midnight and those after it from midnight on exactly if some query comes in the six hours after
midnight, unless none comes before or none after it.

Proof: after the first query before midnight the leap second is set, and it stays so until a query
comes in the first six hours of a day. That query takes it off; if none comes, it is still set on
the next day. If there is no query before midnight it is never set. -/
theorem leap_at_midnight {e : LeapEvent} {times : List Nat} (watched : e.Watched times) :
    (∀ a ∈ e.answers 0 times, e.Right a) ↔ e.Attended times := by
  cases times with
  | nil =>
    refine iff_of_true (fun a member => absurd member List.not_mem_nil) ?_
    rintro ⟨time, member, _⟩
    cases member
  | cons time times =>
    have first := (List.pairwise_cons.mp watched.ordered).1
    obtain ⟨⟨low, high⟩, others⟩ := List.forall_mem_cons.mp watched.near
    unfold LeapEvent.Attended
    by_cases before : time < e.midnight
    · have announced := watched.announced before
      have set : e.answer 0 time = e.answer e.leap time := by
        have day := LeapEvent.evening low before
        rw [LeapEvent.answer_kept day, LeapEvent.answer_taken day]
        simp only [LeapEvent.announcedLeap, LeapEvent.announcedOffset, if_pos announced]
      have same : e.answers 0 (time :: times) = e.answers e.leap (time :: times) := by
        simp only [LeapEvent.answers, set]
      rw [same, LeapEvent.pending_right watched.ordered watched.near]
      exact ⟨fun attended _ => attended, fun attended =>
        attended ⟨time, List.mem_cons_self, before⟩⟩
    · have after : e.midnight ≤ time := Nat.le_of_not_lt before
      have later : ∀ other ∈ time :: times, e.midnight ≤ other := by
        intro other member
        rcases List.mem_cons.mp member with rfl | member
        · exact after
        · exact after.trans (first other member)
      refine iff_of_true (LeapEvent.passed_right fun other member =>
        ⟨later other member, (watched.near other member).2⟩) ?_
      rintro ⟨other, member, earlier⟩
      exact absurd (later other member) (Nat.not_le.mpr earlier)

/-- A second is inserted at the end of the first day, and the master is updated at midnight. -/
def insertedSecond : LeapEvent where
  leap := 1
  utcOffset := 37
  midnight := nsPerDay
  update := nsPerDay
  single := by decide
  daily := ⟨1, by decide⟩
  timely := by decide

theorem leap_at_midnight_inserted :
    insertedSecond.Watched [23 * nsPerHour, 25 * nsPerHour, 31 * nsPerHour] ∧
    ((∀ a ∈ insertedSecond.answers 0 [23 * nsPerHour, 25 * nsPerHour, 31 * nsPerHour],
      insertedSecond.Right a) ↔
      insertedSecond.Attended [23 * nsPerHour, 25 * nsPerHour, 31 * nsPerHour]) := by
  have watched : insertedSecond.Watched [23 * nsPerHour, 25 * nsPerHour, 31 * nsPerHour] :=
    ⟨by decide, by decide, by decide⟩
  exact ⟨watched, leap_at_midnight watched⟩

/-- An hour before midnight and seven hours after it, the leap second is still to come. -/
theorem leap_outlives_midnight :
    insertedSecond.Watched [23 * nsPerHour, 31 * nsPerHour] ∧
      insertedSecond.answers 0 [23 * nsPerHour, 31 * nsPerHour] =
        [⟨23 * nsPerHour, 1, 37⟩, ⟨31 * nsPerHour, 1, 37⟩] ∧
      ¬∀ a ∈ insertedSecond.answers 0 [23 * nsPerHour, 31 * nsPerHour], insertedSecond.Right a :=
  ⟨⟨by decide, by decide, by decide⟩, by decide, by decide⟩

end LinuxPtp
