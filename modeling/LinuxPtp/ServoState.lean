import LinuxPtp.ClockSync

/-!
# What a synchronisation changes and returns

`clock_synchronize` changes only what the clock keeps for its synchronisation, and the state of
the servo that it returns depends on nothing but that and the time properties.

Two facts are used elsewhere. The first is which fields can change, and the second that the result
can be told from the state before: it is needed where a pair is handled, to know beforehand
whether the port will be put back.
-/

namespace LinuxPtp

section Servo

variable {c : Clock} {a : Answers} {s : ClockState}

/-- Only what is kept for the synchronisation of the clock has changed. -/
def Timed (s t : ClockState) : Prop :=
  ∃ log tsproc masterOffset leapSet servoState, t = { s with
    log := log, tsproc := tsproc, masterOffset := masterOffset, leapSet := leapSet,
    servoState := servoState }

/-- Two steps that change only times and the servo are one. -/
theorem Timed.trans {t u : ClockState} (first : Timed s t) (second : Timed t u) : Timed s u := by
  obtain ⟨_, _, _, _, _, rfl⟩ := first
  obtain ⟨log, tsproc, masterOffset, leapSet, servoState, rfl⟩ := second
  exact ⟨log, tsproc, masterOffset, leapSet, servoState, rfl⟩

/-- A new offset is written down, or it is noted that there is none. -/
theorem timed_tsprocUpdateOffset (p : Nat) : Timed s (tsprocUpdateOffset c a p s) := by
  unfold tsprocUpdateOffset
  dsimp only
  split
  · exact ⟨_, _, _, _, _, rfl⟩
  · exact ⟨_, _, _, _, _, rfl⟩

/-- An offset is computed without the servo. -/
theorem tsprocUpdateOffset_servoState {p : Nat} :
    (tsprocUpdateOffset c a p s).servoState = s.servoState := by
  unfold tsprocUpdateOffset
  dsimp only
  split <;> rfl

/-- The correction for UTC changes the offset and the leap second that is set. -/
theorem timed_clockUtcCorrect (p : Nat) (ingress : Int) :
    Timed s (clockUtcCorrect c p ingress s).2 := by
  rcases clockUtcCorrect_cases c p ingress s with same | ⟨_, _, _, same⟩ <;> rw [same] <;>
    exact ⟨_, _, _, _, _, rfl⟩

/-- The servo takes a sample: its state is new, and if it jumps the time stamps are cleared. -/
theorem timed_servoSample : Timed s (servoSample a s).2 := by
  unfold servoSample
  dsimp only
  split
  · exact ⟨_, _, _, _, _, rfl⟩
  · exact ⟨_, _, _, _, _, rfl⟩

/-- The stages of `clock_synchronize` one after the other, so that later proofs split on them
without unfolding each. -/
theorem clockSynchronize_eq (p : Nat) (ingress origin : Int) (t1From t2From : PortIdentity) :
    clockSynchronize c a p ingress origin t1From t2From s =
      let down := { s with tsproc := tsprocDownTs origin ingress t1From t2From s.tsproc }
      if !down.tsproc.hasOffset c.tsprocMode then (.unlocked, down) else
        let corrected := clockUtcCorrect c p ingress (tsprocUpdateOffset c a p down)
        if corrected.1 then (corrected.2.servoState, corrected.2)
        else if c.freeRunning then (.unlocked, corrected.2)
        else servoSample a corrected.2 := rfl

/-- The rule for a synchronisation: what holds once the times are put in, still holds once an offset
is computed and corrected, and is kept by a sample of the servo, holds at the end. Each stage may be
the last. -/
theorem clockSynchronize_keeps {kept : ClockState → Prop} {p : Nat} {ingress origin : Int}
    {t1From t2From : PortIdentity}
    (down : kept { s with tsproc := tsprocDownTs origin ingress t1From t2From s.tsproc })
    (corrected : (tsprocDownTs origin ingress t1From t2From s.tsproc).hasOffset c.tsprocMode →
      kept (clockUtcCorrect c p ingress (tsprocUpdateOffset c a p
        { s with tsproc := tsprocDownTs origin ingress t1From t2From s.tsproc })).2)
    (sampled : ∀ t, kept t → kept (servoSample a t).2) :
    kept (clockSynchronize c a p ingress origin t1From t2From s).2 := by
  rw [clockSynchronize_eq]
  dsimp only
  split
  · exact down
  next offset =>
    have measured := corrected (by simpa using offset)
    split
    · exact measured
    split
    · exact measured
    · exact sampled _ measured

/-- A synchronisation changes only times and the servo. Each stage does, and those that are left out
change nothing. -/
theorem timed_clockSynchronize (p : Nat) (ingress origin : Int) (t1From t2From : PortIdentity) :
    Timed s (clockSynchronize c a p ingress origin t1From t2From s).2 := by
  have down : Timed s { s with tsproc := tsprocDownTs origin ingress t1From t2From s.tsproc } :=
    ⟨_, _, _, _, _, rfl⟩
  exact clockSynchronize_keeps down
    (fun _ => (down.trans (timed_tsprocUpdateOffset p)).trans (timed_clockUtcCorrect p ingress))
    fun _ changed => changed.trans timed_servoSample

/-- `clock_utc_correct` leaves the clock alone around the end of a day with a leap second. -/
def suspends (c : Clock) (ingress : Int) (s : ClockState) : Bool :=
  c.utcTimescale && (leapOf s.tds.flags ≠ 0 || s.leapSet ≠ 0) && s.realtime &&
    isUtcAmbiguous (utcTime s.servoState s.tds.flags s.masterOffset s.utcOffset ingress)

/-- Whether the clock is left alone is found without the change to it. -/
theorem clockUtcCorrect_suspends (p : Nat) (ingress : Int) :
    (clockUtcCorrect c p ingress s).1 = suspends c ingress s := by
  unfold clockUtcCorrect suspends
  cases c.utcTimescale with
  | false => rfl
  | true =>
    have none := @utcFound_none s.realtime s.tds.flags s.leapSet s.utcOffset
      (utcTime s.servoState s.tds.flags s.masterOffset s.utcOffset ingress)
    dsimp only
    cases found : utcFound s.realtime s.tds.flags s.leapSet s.utcOffset
        (utcTime s.servoState s.tds.flags s.masterOffset s.utcOffset ingress) with
    | none => simpa using (none.mp found)
    | some _ =>
      rw [found] at none
      simpa using none

/-- A clock that is left alone is the same afterwards. -/
theorem clockUtcCorrect_suspended {p : Nat} {ingress : Int}
    (suspended : (clockUtcCorrect c p ingress s).1 = true) :
    (clockUtcCorrect c p ingress s).2 = s := by
  unfold clockUtcCorrect at suspended ⊢
  split at suspended
  · cases suspended
  next utc =>
    rw [if_neg utc]
    dsimp only at suspended ⊢
    split at suspended
    · rfl
    · cases suspended

/-- The state that `clock_synchronize` returns. -/
def servoOf (c : Clock) (a : Answers) (ingress origin : Int) (s : ClockState) : ServoState :=
  let tsproc := { s.tsproc with t1 := origin, t2 := ingress }
  if !tsproc.hasOffset c.tsprocMode then .unlocked
  else if suspends c ingress { s with masterOffset := a.offset } then s.servoState
  else if c.freeRunning then .unlocked
  else a.servo

/-- What a synchronisation returns is told from the state before it: the stages change nothing that
the later ones ask for. -/
theorem clockSynchronize_servo (p : Nat) (ingress origin : Int) (t1From t2From : PortIdentity) :
    (clockSynchronize c a p ingress origin t1From t2From s).1 = servoOf c a ingress origin s := by
  have same : suspends c ingress (tsprocUpdateOffset c a p
      { s with tsproc := tsprocDownTs origin ingress t1From t2From s.tsproc }) =
      suspends c ingress { s with masterOffset := a.offset } := by
    unfold tsprocUpdateOffset
    dsimp only
    split <;> rfl
  have offset : (tsprocDownTs origin ingress t1From t2From s.tsproc).hasOffset c.tsprocMode =
      Tsproc.hasOffset c.tsprocMode { s.tsproc with t1 := origin, t2 := ingress } := rfl
  rw [clockSynchronize_eq]
  unfold servoOf
  dsimp only
  rw [offset]
  split
  · rfl
  rw [← same, ← clockUtcCorrect_suspends (c := c) p]
  split
  next suspended => rw [clockUtcCorrect_suspended suspended, tsprocUpdateOffset_servoState]
  split
  · rfl
  · unfold servoSample
    split <;> rfl

end Servo

end LinuxPtp
