import LinuxPtp.Servos

/-!
# When a servo steps the clock, and how far it turns it

What `step_threshold`, `first_step_threshold` and `max_frequency` are documented to do is what every
servo does in every run.

The four servos are treated as one machine with a step that depends on the servo. What is shown of
each step is that a jump needs a threshold, and that what is returned was cut to the limit; the
runs follow by induction.
-/

namespace LinuxPtp.Servos

open FloatingPoint

universe u
variable {F : Type u} [Double F] {servo : Servo F}

/-- The configuration of a servo is that of another one. -/
structure Configured (servo other : Servo F) : Prop where
  maxFrequency : other.maxFrequency = servo.maxFrequency
  stepThreshold : other.stepThreshold = servo.stepThreshold
  firstStepThreshold : other.firstStepThreshold = servo.firstStepThreshold

/-- No event changes how a servo was configured. -/
theorem configured_step (servo : Servo F) (event : ServoEvent F) :
    Configured servo (servoStep servo event) := by
  cases event with
  | sample offset localTs weight => exact ⟨rfl, rfl, rfl⟩
  | syncInterval interval =>
    rw [servoStep, servoSyncInterval]
    split <;> exact ⟨rfl, rfl, rfl⟩
  | reset =>
    rw [servoStep, servoReset]
    split <;> exact ⟨rfl, rfl, rfl⟩
  | leap leap =>
    rw [servoStep, servoLeap]
    split <;> exact ⟨rfl, rfl, rfl⟩

/-- An event that is not a sample leaves the first update to come. -/
theorem firstUpdate_step (event : ServoEvent F)
    (other : ∀ offset localTs weight, event ≠ .sample offset localTs weight) :
    (servoStep servo event).firstUpdate = servo.firstUpdate := by
  cases event with
  | sample offset localTs weight => exact absurd rfl (other offset localTs weight)
  | syncInterval interval =>
    rw [servoStep, servoSyncInterval]
    split <;> rfl
  | reset =>
    rw [servoStep, servoReset]
    split <;> rfl
  | leap leap =>
    rw [servoStep, servoLeap]
    split <;> rfl

/-! ## One sample -/

variable {offset : Int64} {localTs : UInt64} {weight : F}

/-- The PI servo jumps only over a threshold. -/
theorem piCases_jump {s : PiServo F} (jump : (piCases servo offset localTs weight s).2.1 = .jump) :
    jumps servo (ofInt64 offset) = true := by
  unfold piCases at jump
  dsimp only at jump
  split at jump
  · cases jump
  · split at jump
    · cases jump
    split at jump
    · cases jump
    by_contra still
    rw [if_neg still] at jump
    cases jump
  · split at jump
    · cases jump
    split at jump
    · cases jump
    split at jump
    · cases jump
    · cases jump

/-- So does the linear regression, by the error of its line. -/
theorem linregSample_jump {s : LinregServo F}
    (jump : (linregSample servo offset localTs weight s).2.1 = .jump) :
    ∃ error, jumps servo error = true := by
  unfold linregSample at jump
  dsimp only at jump
  split at jump
  · cases jump
  split at jump
  next beyond => exact ⟨_, beyond⟩
  · cases jump

/-- A servo asks for a jump only if an offset is beyond a threshold. -/
theorem coreSample_jump (jump : (coreSample servo offset localTs weight).2.1 = .jump) :
    ∃ error, jumps servo error = true := by
  unfold coreSample at jump
  split at jump
  · exact ⟨_, piCases_jump jump⟩
  · exact linregSample_jump jump
  · cases jump
  · dsimp only [nullfSample] at jump
    split at jump
    · cases jump
    split at jump
    next beyond => exact ⟨_, beyond⟩
    · cases jump

/-- A frequency that is for the clock is within a limit. -/
def Fair {σ : Type u} (limit : F) (result : F × ServoState × σ) : Prop :=
  result.2.1 = .unlocked ∨ Within limit result.1

/-- The PI servo keeps within its limits, as it cuts what it answers. -/
theorem piCases_fair (limits : Limits servo.maxFrequency) (s : PiServo F) :
    Fair servo.maxFrequency (piCases servo offset localTs weight s) := by
  unfold piCases
  split
  · exact .inl rfl
  · dsimp only
    split
    · exact .inl rfl
    split
    · exact .inl rfl
    · exact .inr limits.cut_low
  · dsimp only
    split
    · exact .inl rfl
    have cut := limits.cut_low (x := s.kp * ofInt64 offset * weight + s.drift +
      s.ki * ofInt64 offset * weight)
    split
    next low =>
      rw [if_pos low] at cut
      exact .inr cut
    split
    next low high =>
      rw [if_neg low, if_pos high] at cut
      exact .inr cut
    next low high =>
      rw [if_neg low, if_neg high] at cut
      exact .inr cut

/-- The linear regression does so, too. -/
theorem linregSample_fair (limits : Limits servo.maxFrequency) (s : LinregServo F) :
    Fair servo.maxFrequency (linregSample servo offset localTs weight s) := by
  unfold linregSample
  dsimp only
  split
  · exact .inl rfl
  · exact .inr limits.cut_high.neg

/-- All four servos do. The two that answer nothing answer zero. -/
theorem coreSample_fair (limits : Limits servo.maxFrequency) :
    Fair servo.maxFrequency (coreSample servo offset localTs weight) := by
  unfold coreSample
  split
  · exact piCases_fair limits _
  · exact linregSample_fair limits _
  · exact .inl rfl
  · dsimp only [nullfSample]
    split
    · exact .inr limits.2
    split
    · exact .inr limits.2
    · exact .inr limits.2

/-! ## Runs -/

theorem servoResults_sample (events : List (ServoEvent F)) :
    servoResults servo (.sample offset localTs weight :: events) =
      ((coreSample servo offset localTs weight).1, (coreSample servo offset localTs weight).2.1) ::
        servoResults (servoStep servo (.sample offset localTs weight)) events := rfl

/-- What holds of a sample wherever an invariant does holds of every sample of a run. -/
theorem forall_servoResults {Invariant : Servo F → Prop} {Result : F × ServoState → Prop}
    (keeps : ∀ servo event, Invariant servo → Invariant (servoStep servo event))
    (each : ∀ servo offset localTs weight, Invariant servo →
      Result ((coreSample servo offset localTs weight).1,
        (coreSample servo offset localTs weight).2.1))
    (initially : Invariant servo) (events : List (ServoEvent F)) :
    ∀ result ∈ servoResults servo events, Result result := by
  induction events generalizing servo with
  | nil => exact fun _ member => absurd member List.not_mem_nil
  | cons event events inductionHypothesis =>
    have rest := inductionHypothesis (keeps servo event initially)
    cases event with
    | sample offset localTs weight =>
      rw [servoResults_sample]
      rintro result (_ | ⟨_, member⟩)
      · exact each servo offset localTs weight initially
      · exact rest result member
    | syncInterval interval => exact rest
    | reset => exact rest
    | leap leap => exact rest

/-- The clock is not stepped any more. -/
structure Steady (servo : Servo F) : Prop where
  updated : servo.firstUpdate = false ∨ (servo.firstStepThreshold != 0.0) = false
  noThreshold : (servo.stepThreshold != 0.0) = false

/-- Past its start a servo without a threshold takes no error for one to jump at. -/
theorem Steady.jumps (steady : Steady servo) (error : F) : jumps servo error = false := by
  unfold Servos.jumps
  rw [steady.noThreshold]
  rcases steady.updated with updated | noFirst
  · rw [updated]
    rfl
  · rw [noFirst, Bool.and_false]
    rfl

/-- It stays past its start whatever happens. -/
theorem Steady.step (steady : Steady servo) (event : ServoEvent F) :
    Steady (servoStep servo event) := by
  obtain ⟨-, threshold, first⟩ := configured_step servo event
  refine ⟨?_, threshold ▸ steady.noThreshold⟩
  rcases steady.updated with updated | noFirst
  · left
    cases event with
    | sample offset localTs weight =>
      rw [servoStep, servoSample]
      dsimp only
      rw [updated, ite_self]
    | syncInterval interval => rw [firstUpdate_step _ nofun, updated]
    | reset => rw [firstUpdate_step _ nofun, updated]
    | leap leap => rw [firstUpdate_step _ nofun, updated]
  · exact .inr (first ▸ noFirst)

/-- So it never jumps again, by induction on the events. -/
theorem Steady.results (steady : Steady servo) (events : List (ServoEvent F)) :
    ∀ result ∈ servoResults servo events, result.2 ≠ .jump := by
  refine forall_servoResults (fun _ event steady => steady.step event) ?_ steady events
  intro servo offset localTs weight steady jump
  obtain ⟨error, beyond⟩ := coreSample_jump jump
  rw [steady.jumps] at beyond
  cases beyond

/-- Without a threshold for later steps, every jump comes before the first use of the clock. -/
theorem results_pairwise (noThreshold : (servo.stepThreshold != 0.0) = false)
    (events : List (ServoEvent F)) : (servoResults servo events).Pairwise
      fun earlier later => later.2 = .jump → earlier.2 = .unlocked := by
  induction events generalizing servo with
  | nil => exact .nil
  | cons event events inductionHypothesis =>
    have threshold := (configured_step servo event).stepThreshold
    have rest := inductionHypothesis (threshold ▸ noThreshold)
    cases event with
    | sample offset localTs weight =>
      rw [servoResults_sample]
      refine .cons (fun later member jump => ?_) rest
      by_contra used
      have steady : Steady (servoStep servo (.sample offset localTs weight)) :=
        ⟨.inl (if_neg used), threshold ▸ noThreshold⟩
      exact steady.results events later member jump
    | syncInterval interval => exact rest
    | reset => exact rest
    | leap leap => exact rest

theorem threshold_none {seconds : F} (off : ¬ 0.0 < seconds) :
    ((if 0.0 < seconds then seconds * 1000000000.0 else 0.0 : F) != 0.0) = false := by
  rw [if_neg off, bne, Double.zero_beq]
  rfl

/-- With no `step_threshold`, the clock is stepped at most once, before it is adjusted for the
first time, and with no `first_step_threshold` either it never is.

Proof: a jump needs a threshold above zero, and `first_step_threshold` counts only until the first
sample is used, which no reset takes back. -/
theorem stepped_at_start {segment : Int → Option ShmTime} {cfg : ServoConfig F}
    {type : ServoType} {fadj maxPpb : Int} {swTs : Bool}
    (created : servoCreate segment cfg type fadj maxPpb swTs = some servo)
    (never : ¬ 0.0 < cfg.stepThreshold) (events : List (ServoEvent F)) :
    (servoResults servo events).Pairwise
      (fun earlier later => later.2 = .jump → earlier.2 = .unlocked) ∧
    (¬ 0.0 < cfg.firstStepThreshold →
      ∀ result ∈ servoResults servo events, result.2 ≠ .jump) := by
  obtain ⟨core, -, rfl⟩ := Option.map_eq_some_iff.mp created
  refine ⟨results_pairwise (threshold_none never) events, fun neverFirst => ?_⟩
  exact Steady.results ⟨.inr (threshold_none neverFirst), threshold_none never⟩ events

/-- The constants of a controller are set, and the other options are as they are by default. -/
def plainConfig : ServoConfig ℚ where
  piProportionalConst := 0.7
  piIntegralConst := 0.3
  piProportionalScale := 0.0
  piProportionalExponent := -0.3
  piProportionalNormMax := 0.7
  piIntegralScale := 0.0
  piIntegralExponent := 0.4
  piIntegralNormMax := 0.3
  stepThreshold := 0.0
  firstStepThreshold := 0.00002
  maxFrequency := 900000000
  ntpshmSegment := 0

/-- Samples of a clock that is behind its master, each a second after the last one. -/
def lateSamples (n : Nat) : List (ServoEvent ℚ) :=
  .syncInterval 1.0 :: (List.range n).map fun i : Nat =>
    .sample (Int64.ofInt (i - 40000)) (UInt64.ofNat ((i + 1) * 1000000000)) 1.0

theorem stepped_at_start_pi : ∃ servo,
    servoCreate (fun _ => none) plainConfig .pi 0 500000 false = some servo ∧
    (servoResults servo (lateSamples 3)).map Prod.snd = [.unlocked, .jump, .locked] ∧
    (servoResults servo (lateSamples 3)).Pairwise
      (fun earlier later => later.2 = .jump → earlier.2 = .unlocked) := by
  have created : servoCreate (fun _ => none) plainConfig .pi 0 500000 false = some _ := rfl
  refine ⟨_, created, by decide +kernel, ?_⟩
  exact (stepped_at_start created (by norm_num [plainConfig]) (lateSamples 3)).1

/-- A frequency is beyond neither the limit of the hardware nor `max_frequency`, if there is one.

Proof: each servo cuts what it returns to the limit, and the limit is set at its creation and never
changed. For numbers that compare with nothing, as NaN does, the comparisons that cut fail, and so
does being beyond the limit. -/
theorem frequency_limited {segment : Int → Option ShmTime} {cfg : ServoConfig F}
    {type : ServoType} {fadj maxPpb : Int} {swTs : Bool}
    (created : servoCreate segment cfg type fadj maxPpb swTs = some servo)
    (hardware : 0 ≤ maxPpb) (configured : 0 ≤ cfg.maxFrequency) (events : List (ServoEvent F)) :
    ∀ result ∈ servoResults servo events, result.2 ≠ .unlocked →
      Within (maxPpb : F) result.1 ∧
      (cfg.maxFrequency ≠ 0 → Within (cfg.maxFrequency : F) result.1) := by
  have limited : Limits servo.maxFrequency ∧
      ∀ x, Within servo.maxFrequency x → Within (maxPpb : F) x ∧
        (cfg.maxFrequency ≠ 0 → Within (cfg.maxFrequency : F) x) := by
    obtain ⟨core, -, rfl⟩ := Option.map_eq_some_iff.mp created
    dsimp only
    split
    next both =>
      refine ⟨limits_cast configured, fun x within => ⟨?_, fun _ => within⟩⟩
      exact within.mono fun y beyond => Double.less_trans _ _ _ both.2 beyond
    next other =>
      refine ⟨limits_cast hardware, fun x within => ⟨within, fun given => ?_⟩⟩
      refine within.mono fun y beyond => ?_
      have notLess : ¬ (cfg.maxFrequency : F) < maxPpb := fun less => other ⟨given, less⟩
      exact (Double.cast_between _ _ _ beyond).resolve_left notLess
  obtain ⟨limits, both⟩ := limited
  refine forall_servoResults
    (fun other event same => (configured_step other event).maxFrequency.trans same) ?_ rfl events
  intro other offset localTs weight (same : other.maxFrequency = servo.maxFrequency) used
  have fair : Fair other.maxFrequency (coreSample other offset localTs weight) :=
    coreSample_fair (same.symm ▸ limits)
  exact both _ (same ▸ fair.resolve_left used)

theorem frequency_limited_pi : ∃ servo,
    servoCreate (fun _ => none) plainConfig .pi 0 500000 false = some servo ∧
    ∀ result ∈ servoResults servo (lateSamples 3), result.2 ≠ .unlocked →
      Within ((500000 : Int) : ℚ) result.1 ∧
      (plainConfig.maxFrequency ≠ 0 → Within (plainConfig.maxFrequency : ℚ) result.1) := by
  have created : servoCreate (fun _ => none) plainConfig .pi 0 500000 false = some _ := rfl
  exact ⟨_, created, frequency_limited created (by decide) (by decide) (lateSamples 3)⟩

end LinuxPtp.Servos
