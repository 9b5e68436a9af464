import LinuxPtp.ReportedTimes
import LinuxPtp.Runs
import Mathlib.Algebra.BigOperators.Group.List.Basic
import Mathlib.Tactic.Linarith

/-!
# What is measured

While the clock is at an offset from its master, and the messages down and up take as long as they
take, every delay that is computed is the mean of both ways, and every offset is off by half of what
they differ. The clock may be stepped, and the master may be another one: nothing from before is
used after it.

The world is not part of the state: a run of the clock is paired with the times that hold after
each event, and the events must go along with them. The offset may change only as the servo steps
the clock, and everything only with the choice of another master, which are the two places at
which the code forgets.
-/

namespace LinuxPtp.TimestampProcessor

open Tmv Filters

/-! ## Filters of one value -/

section Constant

variable {value : Int}

/-- If a multiple of a time fits into 64 bits, a smaller one does. -/
theorem fits_multiple {count most : Nat} (less : count ≤ most) (fits : Fits (most * value)) :
    Fits (count * value) := by
  obtain ⟨low, high⟩ := fits
  have factor : (count : Int) ≤ most := Int.ofNat_le.mpr less
  rcases Int.le_total 0 value with positive | negative
  · have below : (count : Int) * value ≤ most * value :=
      Int.mul_le_mul_of_nonneg_right factor positive
    have above : 0 ≤ (count : Int) * value := Int.mul_nonneg (Int.natCast_nonneg _) positive
    exact ⟨by omega, by omega⟩
  · have above : (most : Int) * value ≤ count * value :=
      Int.mul_le_mul_of_nonpos_right factor negative
    have below : (count : Int) * value ≤ 0 :=
      Int.mul_nonpos_of_nonneg_of_nonpos (Int.natCast_nonneg _) negative
    exact ⟨by omega, by omega⟩

/-- The median of times that are all the same is that time: the middle one is one of them, and of
two the mean is taken. -/
theorem median_constant {numbers : List Int} (some : 0 < numbers.length)
    (same : ∀ x ∈ numbers, x = value) : median numbers = value := by
  have sorted : ∀ x ∈ numbers.insertionSort (· ≤ ·), x = value := fun x member =>
    same x ((List.perm_insertionSort ..).subset member)
  have read : ∀ place < numbers.length, (numbers.insertionSort (· ≤ ·)).getD place 0 = value := by
    intro place inside
    rw [← List.length_insertionSort (· ≤ ·)] at inside
    rw [List.getD_eq_getElem _ _ inside]
    exact sorted _ (List.getElem_mem _)
  rw [median]
  split
  · exact read _ (by omega)
  · have twice : value + value = 2 * value := by omega
    rw [read _ (by omega), read _ (by omega), twice]
    exact Int.mul_tdiv_cancel_left _ (by decide)

/-- As many samples as a filter keeps. -/
def Filter.length : Filter → Nat
  | .movingAverage m => m.len
  | .movingMedian m => m.len

/-- A filter keeps the last of some samples. -/
def Filter.Holds : Filter → List Int → Prop
  | .movingAverage m, samples => 1 ≤ m.len ∧ m.Holds samples
  | .movingMedian m, samples => m.Holds samples

variable {f : Filter} {samples : List Int}

theorem Filter.holds_create {type : FilterType} {length : Int} (positive : 1 ≤ length)
    (created : filterCreate type length = some f) : f.Holds [] ∧ f.length = length.toNat := by
  have long : 1 ≤ length.toNat := by omega
  cases type with
  | movingAverage =>
    obtain rfl := Option.some.inj created
    exact ⟨⟨long, holds_cleared long⟩, rfl⟩
  | movingMedian =>
    obtain ⟨m, made, rfl⟩ := Option.map_eq_some_iff.mp created
    obtain ⟨len, holds⟩ := mmedian_holds made []
    exact ⟨holds, len⟩

theorem Filter.Holds.reset (holds : f.Holds samples) :
    (filterReset f).Holds [] ∧ (filterReset f).length = f.length := by
  cases f with
  | movingAverage m => exact ⟨⟨holds.1, holds_cleared holds.1⟩, rfl⟩
  | movingMedian m => exact ⟨Mmedian.Holds.step holds .reset, rfl⟩

/-- A filter that is given a sample holds it with those before. For the moving average this is the
sum over the ring, for the moving median the order that the insertion keeps. -/
theorem Filter.Holds.sample (holds : f.Holds samples) (new : Int) :
    (filterSample f new).2.Holds (samples ++ [new]) ∧ (filterSample f new).2.length = f.length := by
  cases f with
  | movingAverage m => exact ⟨⟨holds.1, holds.2.accumulate new⟩, rfl⟩
  | movingMedian m => exact ⟨Mmedian.Holds.sample holds new, rfl⟩

/-- The last samples of a list of the same times, with one more of them, are all the same. -/
theorem mem_rtake {samples : List Int} {count : Nat} (same : ∀ x ∈ samples, x = value) :
    ∀ x ∈ (samples ++ [value]).rtake count, x = value := by
  intro x member
  have within := List.mem_of_mem_drop member
  rcases List.mem_append.mp within with old | new
  · exact same x old
  · exact List.mem_singleton.mp new

/-- A filter that has only had one value returns it. -/
theorem Filter.Holds.constant (holds : f.Holds samples) (same : ∀ x ∈ samples, x = value)
    (filtered : Fits (f.length * value)) (twice : Fits (value + value)) :
    (filterSample f value).1 = value := by
  cases f with
  | movingAverage m =>
    obtain ⟨long, holds⟩ := holds
    have next := holds.accumulate value
    generalize after : (maveAccumulate m value).2 = now at next
    have returned : (filterSample (.movingAverage m) value).1 = tmvDiv now.sum now.cnt := by
      rw [← after]
      rfl
    have len : now.len = m.len := by rw [← after]; rfl
    have all : ∀ x ∈ now.ring.live, x = value := by
      intro x member
      have listed : x ∈ (samples ++ [value]).rtake now.len :=
        next.window ▸ RingBuffers.Ring.window_perm.mem_iff.mpr member
      exact mem_rtake same x listed
    have count : now.ring.live.length = now.cnt := next.sound.length_live
    have some : 0 < now.cnt := by
      rw [← count, ← RingBuffers.Ring.window_perm.length_eq, next.window, List.rtake,
        List.length_drop, List.length_append, List.length_singleton]
      omega
    have sum : now.ring.live.sum = now.cnt * value := by
      rw [List.sum_eq_card_nsmul _ _ all, count]
      exact nsmul_eq_mul ..
    have bounded : now.cnt ≤ m.len := by
      rw [← len, ← next.len]
      exact next.sound.bounded
    rw [returned, next.sum, sum, int64_of_fits (fits_multiple bounded filtered), tmvDiv]
    exact Int.mul_tdiv_cancel_left _ (by omega)
  | movingMedian m =>
    have next := Mmedian.Holds.sample holds value
    have some := Mmedian.Holds.sample_cnt holds value
    have middle := next.middle_eq some (List.pairwise_of_forall_mem_list fun a first b second => by
      rw [mem_rtake same a first, mem_rtake same b second]
      exact twice)
    have many : 0 < ((samples ++ [value]).rtake (mmedianSample m value).2.len).length := by
      rw [← next.window, next.sound.length_window]
      exact some
    exact middle.trans (median_constant many (mem_rtake same))

end Constant

/-! ## The world -/

/-- How far the clock is from its master, and how long messages down and up take. -/
structure World where
  offset : Int
  down : Int
  up : Int

/-- The mean of both ways, which is rounded towards zero. -/
def World.delay (w : World) : Int := (w.down + w.up).tdiv 2

/-- The sums that the code forms of the times fit into 64 bits. -/
structure World.Moderate (length : Nat) (w : World) : Prop where
  ways : Fits (w.down + w.up)
  filtered : Fits (length * w.delay)
  offset : Fits (w.offset + w.down - w.delay)

/-- The times of an event are those of the world. Peers are not asked, and no ratio is known. -/
def World.Times (w : World) : Event → Prop
  | .sync ingress origin _ ratio => ingress = origin + w.offset + w.down ∧ ratio = none
  | .delay req rx => rx = req - w.offset + w.up
  | .peerDelay _ _ _ => False
  | _ => True

/-- The clock is stepped. -/
def Steps (s : System) : Event → Prop
  | .sync ingress origin state _ =>
    (producedOffset ingress origin s.clock).isSome ∧ ¬ s.clock.freeRunning ∧ state = .jump
  | _ => False

/-- A step of the clock changes the offset, and another master everything. -/
def World.Becomes (s : System) (event : Event) (w next : World) : Prop :=
  event = .newBest ∨ (Steps s event ∧ next.down = w.down ∧ next.up = w.up) ∨ next = w

/-- An event, and the world after it. -/
def worldStep (now : System × World) (event : Event × World) : System × World :=
  (step now.1 event.1, event.2)

/-- The events of a world, which stays moderate. -/
def Happens (length : Nat) (now : System × World) (event : Event × World) : Prop :=
  now.2.Times event.1 ∧ now.2.Becomes now.1 event.1 event.2 ∧ event.2.Moderate length

/-- Whatever times there are belong to the world, and so do the delays. -/
structure Measures (length : Nat) (w : World) (tsp : Tsproc) : Prop where
  ratio : tsp.clockRateRatio = none
  down : tsp.t2 ≠ 0 → tsp.t2 = tsp.t1 + w.offset + w.down
  up : tsp.t3 ≠ 0 → tsp.t4 = tsp.t3 - w.offset + w.up
  valid : tsp.filteredDelayValid = true → tsp.filteredDelay = w.delay
  length : tsp.delayFilter.length = length
  filter : ∃ samples, tsp.delayFilter.Holds samples ∧ ∀ x ∈ samples, x = w.delay

section World

variable {length : Nat} {w : World} {tsp : Tsproc}

theorem World.Moderate.twice (moderate : w.Moderate length) : Fits (w.delay + w.delay) := by
  obtain ⟨low, high⟩ := moderate.ways
  rw [World.delay]
  rcases Int.le_total 0 (w.down + w.up) with positive | negative
  · rw [Int.tdiv_eq_ediv_of_nonneg positive]
    exact ⟨by omega, by omega⟩
  · have opposite : w.down + w.up = -(-(w.down + w.up)) := by omega
    rw [opposite, Int.neg_tdiv, Int.tdiv_eq_ediv_of_nonneg (by omega)]
    exact ⟨by omega, by omega⟩

/-- The offset cancels out. -/
theorem Measures.rawDelay (measures : Measures length w tsp) (moderate : w.Moderate length)
    (down : tsp.t2 ≠ 0) (up : tsp.t3 ≠ 0) : getRawDelay tsp = w.delay := by
  have sum : tsp.t2 - tsp.t3 + (tsp.t4 - tsp.t1) = w.down + w.up := by
    rw [measures.down down, measures.up up]
    omega
  have wrapped : int64 (int64 (tsp.t2 - tsp.t3) + int64 (tsp.t4 - tsp.t1)) = w.down + w.up := by
    rw [int64_add_left, Int.add_comm, int64_add_left, Int.add_comm, sum,
      int64_of_fits moderate.ways]
  rw [getRawDelay, measures.ratio]
  exact congrArg (tmvDiv · 2) wrapped

/-- A delay that is computed is the mean of the two ways. All samples in the filter are of the same
two ways, as it was emptied when they changed. -/
theorem Measures.updateDelay (measures : Measures length w tsp) (moderate : w.Moderate length)
    {delay : Int} {next : Tsproc} (computed : tsprocUpdateDelay tsp = some (delay, next)) :
    delay = w.delay ∧ Measures length w next := by
  rw [tsprocUpdateDelay] at computed
  split at computed
  · cases computed
  next there =>
    rw [not_or] at there
    obtain ⟨samples, holds, same⟩ := measures.filter
    have raw := measures.rawDelay moderate there.1 there.2
    have filtered := holds.constant same (measures.length ▸ moderate.filtered) moderate.twice
    obtain ⟨kept, long⟩ := holds.sample w.delay
    have all : ∀ x ∈ samples ++ [w.delay], x = w.delay := by
      intro x member
      rcases List.mem_append.mp member with old | new
      · exact same x old
      · exact List.mem_singleton.mp new
    simp only [raw, Option.some.injEq, Prod.mk.injEq] at computed
    obtain ⟨rfl, rfl⟩ := computed
    refine ⟨?_, measures.ratio, measures.down, measures.up, fun _ => filtered,
      long.trans measures.length, _, kept, all⟩
    cases tsp.mode with
    | filter => exact filtered
    | filterWeight => exact filtered
    | raw => rfl
    | rawWeight => rfl

/-- An offset that is computed is off by half of what the two ways differ. -/
theorem Measures.updateOffset (measures : Measures length w tsp) (moderate : w.Moderate length)
    {offset : Int} (computed : tsprocUpdateOffset tsp = some offset) :
    offset = w.offset + w.down - w.delay := by
  rw [tsprocUpdateOffset] at computed
  split at computed
  · cases computed
  next there =>
    rw [not_or] at there
    obtain ⟨delay, used, rfl⟩ := Option.map_eq_some_iff.mp computed
    have known : delay = w.delay := by
      have raw := measures.rawDelay moderate there.2
      cases mode : tsp.mode with
      | filter =>
        rw [mode] at used
        obtain ⟨valid, same⟩ := Option.ite_none_right_eq_some.mp used
        exact (Option.some.inj same).symm.trans (measures.valid valid)
      | raw =>
        rw [mode] at used
        obtain ⟨up, same⟩ := Option.ite_none_left_eq_some.mp used
        exact (Option.some.inj same).symm.trans (raw up)
      | rawWeight =>
        rw [mode] at used
        obtain ⟨up, same⟩ := Option.ite_none_left_eq_some.mp used
        exact (Option.some.inj same).symm.trans (raw up)
      | filterWeight =>
        rw [mode] at used
        obtain ⟨both, same⟩ := Option.ite_none_left_eq_some.mp used
        have valid : tsp.filteredDelayValid = true := by simpa using (not_or.mp both).2
        exact (Option.some.inj same).symm.trans (measures.valid valid)
    have down : tsp.t2 - tsp.t1 = w.offset + w.down := by
      rw [measures.down there.2]
      omega
    rw [known, tmvSub, tmvSub, int64_sub_left, down, int64_of_fits moderate.offset]

/-- The times of a message down, received in the same world, are in keeping with what is measured. -/
theorem Measures.downTs (measures : Measures length w tsp) {ingress origin : Int}
    (times : ingress = origin + w.offset + w.down) :
    Measures length w (tsprocDownTs origin ingress tsp) :=
  { measures with down := fun _ => times }

/-- So are those of a message up. -/
theorem Measures.upTs (measures : Measures length w tsp) {req rx : Int}
    (times : rx = req - w.offset + w.up) : Measures length w (tsprocUpTs req rx tsp) :=
  { measures with up := fun _ => times }

/-- Without times, the offset does not matter. -/
theorem Measures.reset (measures : Measures length w tsp) {next : World}
    (down : next.down = w.down) (up : next.up = w.up) :
    Measures length next (tsprocReset false tsp) := by
  have delay : next.delay = w.delay := by rw [World.delay, World.delay, down, up]
  refine ⟨measures.ratio, absurd rfl, absurd rfl, ?_, measures.length, ?_⟩
  · rw [delay]
    exact measures.valid
  · rw [delay]
    exact measures.filter

/-- Without delays, nothing does. -/
theorem Measures.fullReset (measures : Measures length w tsp) (next : World) :
    Measures length next (tsprocReset true tsp) := by
  obtain ⟨samples, holds, -⟩ := measures.filter
  obtain ⟨empty, long⟩ := holds.reset
  refine ⟨rfl, absurd rfl, absurd rfl, ?_, long.trans measures.length, [], empty, ?_⟩
  · exact fun valid => absurd valid Bool.false_ne_true
  · exact fun _ member => absurd member List.not_mem_nil

/-! ## Events -/

/-- What the correction for UTC leaves alone. -/
structure Uncorrected (c other : Clock) : Prop where
  tsproc : other.tsproc = c.tsproc
  freeRunning : other.freeRunning = c.freeRunning
  initialDelay : other.initialDelay = c.initialDelay

theorem clockUtcCorrect_uncorrected (ingress : Int) (c : Clock) :
    Uncorrected c (clockUtcCorrect ingress c).2 := by
  rcases clockUtcCorrect_cases ingress c with same | ⟨_, _, same⟩ <;> rw [same] <;>
    exact ⟨rfl, rfl, rfl⟩

/-- A message down leaves its times, unless the clock is stepped. -/
theorem clockSynchronize_tsproc (s : System) (ingress origin : Int) (state : ServoState)
    (ratio : Option (Int → Int)) :
    let after := (clockSynchronize ingress origin state ratio s.clock).tsproc
    let down := tsprocDownTs origin ingress s.clock.tsproc
    (Steps s (.sync ingress origin state ratio) ∧
      after = tsprocReset false (tsprocSetClockRateRatio ratio down)) ∨
    (¬ Steps s (.sync ingress origin state ratio) ∧
      (after = down ∨ after = tsprocSetClockRateRatio ratio down)) := by
  dsimp only [Steps, clockSynchronize, producedOffset]
  cases tsprocUpdateOffset (tsprocDownTs origin ingress s.clock.tsproc) with
  | none => exact .inr ⟨fun steps => absurd steps.1 Bool.false_ne_true, .inl rfl⟩
  | some offset =>
    dsimp only
    have same := clockUtcCorrect_uncorrected ingress { s.clock with
      ingressTs := ingress
      tsproc := tsprocDownTs origin ingress s.clock.tsproc
      masterOffset := offset }
    generalize clockUtcCorrect ingress _ = corrected at same ⊢
    obtain ⟨suspended, corrected⟩ := corrected
    obtain ⟨tsproc, freeRunning, -⟩ := same
    dsimp only at tsproc freeRunning ⊢
    rw [← freeRunning, ← tsproc]
    split
    · exact .inr ⟨fun steps => absurd steps.1 Bool.false_ne_true, .inl rfl⟩
    split
    next free => exact .inr ⟨fun steps => steps.2.1 free, .inl rfl⟩
    next controlled =>
      split
      next jump => exact .inl ⟨⟨rfl, controlled, jump⟩, rfl⟩
      next still => exact .inr ⟨fun steps => still steps.2.2, .inr rfl⟩

/-- The world stays what it is unless the clock is stepped or another master is chosen. -/
theorem World.Becomes.same {s : System} {event : Event} {next : World}
    (becomes : w.Becomes s event next) (other : event ≠ .newBest) (still : ¬ Steps s event) :
    next = w := by
  rcases becomes with newBest | ⟨steps, -⟩ | same
  · exact absurd newBest other
  · exact absurd steps still
  · exact same

theorem clockSynchronize_initialDelay (ingress origin : Int) (state : ServoState)
    (ratio : Option (Int → Int)) (c : Clock) :
    (clockSynchronize ingress origin state ratio c).initialDelay = c.initialDelay := by
  rw [clockSynchronize]
  cases tsprocUpdateOffset (tsprocDownTs origin ingress c.tsproc) with
  | none => rfl
  | some offset =>
    dsimp only
    have same := (clockUtcCorrect_uncorrected ingress { c with
      ingressTs := ingress
      tsproc := tsprocDownTs origin ingress c.tsproc
      masterOffset := offset }).initialDelay
    generalize clockUtcCorrect ingress _ = corrected at same ⊢
    split
    · exact same
    split
    · exact same
    split
    · exact same
    · exact same

/-- No event sets the delay of the configuration. -/
theorem step_initialDelay (s : System) (event : Event) :
    (step s event).clock.initialDelay = s.clock.initialDelay := by
  cases event with
  | sync ingress origin state ratio => exact clockSynchronize_initialDelay ..
  | delay req rx =>
    dsimp only [TimestampProcessor.step, clockPathDelay]
    split <;> rfl
  | peerDelay port e ratio =>
    dsimp only [TimestampProcessor.step, portPeerDelay]
    split
    · rfl
    · split <;> rfl
  | newBest => rfl
  | grandmaster flags => rfl
  | slave flags currentUtcOffset => rfl
  | portInitialize port => rfl
  | portState port state => rfl

/-- Every event that happens keeps what is measured to the world. -/
theorem Measures.step {s : System} {event : Event} {next : World}
    (measures : Measures length w s.clock.tsproc) (moderate : w.Moderate length)
    (noInitial : s.clock.initialDelay = 0) (times : w.Times event)
    (becomes : w.Becomes s event next) : Measures length next (step s event).clock.tsproc := by
  cases event with
  | sync ingress origin state ratio =>
    obtain ⟨down, rfl⟩ := times
    have down := measures.downTs down
    have unscaled : Measures length w
        (tsprocSetClockRateRatio none (tsprocDownTs origin ingress s.clock.tsproc)) :=
      { down with ratio := rfl }
    rcases clockSynchronize_tsproc s ingress origin state none with ⟨-, after⟩ | ⟨still, after⟩
    · have same : next.down = w.down ∧ next.up = w.up := by
        rcases becomes with other | ⟨-, ways⟩ | rfl
        · cases other
        · exact ways
        · exact ⟨rfl, rfl⟩
      rw [TimestampProcessor.step]
      dsimp only
      rw [after]
      exact unscaled.reset same.1 same.2
    · obtain rfl := becomes.same (by simp) still
      rw [TimestampProcessor.step]
      dsimp only
      rcases after with after | after
      · rw [after]
        exact down
      · rw [after]
        exact unscaled
  | delay req rx =>
    obtain rfl := becomes.same (by simp) id
    have up := measures.upTs times
    rw [TimestampProcessor.step, clockPathDelay]
    dsimp only
    cases computed : tsprocUpdateDelay (tsprocUpTs req rx s.clock.tsproc) with
    | none => exact up
    | some result => exact (up.updateDelay moderate computed).2
  | peerDelay port e ratio => exact times.elim
  | newBest =>
    rw [TimestampProcessor.step, newBest]
    dsimp only
    rw [if_pos noInitial]
    exact measures.fullReset next
  | grandmaster flags =>
    obtain rfl := becomes.same (by simp) id
    exact measures
  | slave flags currentUtcOffset =>
    obtain rfl := becomes.same (by simp) id
    exact measures
  | portInitialize port =>
    obtain rfl := becomes.same (by simp) id
    exact measures
  | portState port state =>
    obtain rfl := becomes.same (by simp) id
    exact measures

/-- What every run keeps. -/
structure Surveyed (length : Nat) (now : System × World) : Prop where
  noInitial : now.1.clock.initialDelay = 0
  moderate : now.2.Moderate length
  measures : Measures length now.2 now.1.clock.tsproc

/-- One event keeps what is known of the processor: it empties what was measured in another world. -/
theorem Surveyed.step {now : System × World} {event : Event × World}
    (surveyed : Surveyed length now) (happens : Happens length now event) :
    Surveyed length (worldStep now event) := by
  obtain ⟨noInitial, moderate, measures⟩ := surveyed
  obtain ⟨times, becomes, next⟩ := happens
  refine ⟨?_, next, measures.step moderate noInitial times becomes⟩
  rw [← noInitial]
  exact step_initialDelay ..

/-- A clock that was just made has measured nothing. -/
theorem surveyed_created {settings : Settings} {type : FilterType} {length : Int}
    (made : filterCreate type length = some settings.delayFilter) (positive : 1 ≤ length)
    (noInitial : settings.initialDelay = 0) (moderate : w.Moderate length.toNat) :
    Surveyed length.toNat (created settings, w) := by
  obtain ⟨empty, long⟩ := Filter.holds_create positive made
  refine ⟨noInitial, moderate, rfl, absurd rfl, absurd rfl, ?_, long, [], empty, ?_⟩
  · exact fun valid => absurd valid Bool.false_ne_true
  · exact fun _ member => absurd member List.not_mem_nil

/-- In every run in which the world changes only where the clock is stepped or follows another
master, a delay is the mean of both ways, and an offset is off by half of what they differ.

The true offset, the times of messages and the sums of them are those of a world that the run goes
along with.

Proof: in every state the time stamps that are set satisfy the equations of the present world, and
the filter has only had delays of it: where the world changes, the code has just cleared what was
from before. -/
theorem offset_measured {settings : Settings} {type : FilterType} {length : Int}
    (made : filterCreate type length = some settings.delayFilter) (positive : 1 ≤ length)
    (noInitial : settings.initialDelay = 0) {w : World} (moderate : w.Moderate length.toNat)
    {events : List (Event × World)}
    (happens : Runs.Along worldStep (Happens length.toNat) (created settings, w) events) :
    let (s, now) := events.foldl worldStep (created settings, w)
    (∀ req rx delay, rx = req - now.offset + now.up →
      producedDelay req rx s.clock = some delay → delay = now.delay) ∧
    ∀ ingress origin offset, ingress = origin + now.offset + now.down →
      tsprocUpdateOffset (tsprocDownTs origin ingress s.clock.tsproc) = some offset →
        offset = now.offset + now.down - now.delay ∧ (now.down = now.up → offset = now.offset) := by
  have surveyed : Surveyed length.toNat (events.foldl worldStep (created settings, w)) :=
    happens.keeps (surveyed_created made positive noInitial moderate)
      fun _ _ surveyed here => surveyed.step here
  generalize events.foldl worldStep (created settings, w) = now at surveyed
  obtain ⟨s, now⟩ := now
  obtain ⟨-, moderate, measures⟩ := surveyed
  dsimp only at moderate measures ⊢
  refine ⟨fun req rx delay times computed => ?_, fun ingress origin offset times computed => ?_⟩
  · obtain ⟨⟨_, _⟩, updated, rfl⟩ := Option.map_eq_some_iff.mp computed
    exact ((measures.upTs times).updateDelay moderate updated).1
  · have computed := (measures.downTs times).updateOffset moderate computed
    refine ⟨computed, fun symmetric => ?_⟩
    have delay : now.delay = now.down := by
      have twice : now.down + now.up = 2 * now.down := by omega
      rw [World.delay, twice]
      exact Int.mul_tdiv_cancel_left _ (by decide)
    omega

/-- A clock that is behind its master by 300 nanoseconds, over a path that is longer up. -/
def nearWorld : World := ⟨-300, 1000, 1500⟩

/-- The clock is stepped, and then follows another master. -/
def nearEvents : List (Event × World) :=
  [(.delay 1000000000 (1000000000 + 300 + 1500), nearWorld),
    (.sync (2000000000 - 300 + 1000) 2000000000 .unlocked none, nearWorld),
    (.delay 3000000000 (3000000000 + 300 + 1500), nearWorld),
    (.sync (4000000000 - 300 + 1000) 4000000000 .jump none, { nearWorld with offset := 250 }),
    (.newBest, ⟨70, 2000, 2000⟩),
    (.sync (5000000000 + 70 + 2000) 5000000000 .unlocked none, ⟨70, 2000, 2000⟩),
    (.delay 6000000000 (6000000000 - 70 + 2000), ⟨70, 2000, 2000⟩)]

theorem offset_measured_near :
    let (s, now) := nearEvents.foldl worldStep (created someSettings, nearWorld)
    tsprocUpdateOffset (tsprocDownTs 7000000000 (7000000000 + 70 + 2000) s.clock.tsproc) = some 70 ∧
    (∀ req rx delay, rx = req - now.offset + now.up →
      producedDelay req rx s.clock = some delay → delay = now.delay) ∧
    ∀ ingress origin offset, ingress = origin + now.offset + now.down →
      tsprocUpdateOffset (tsprocDownTs origin ingress s.clock.tsproc) = some offset →
        offset = now.offset + now.down - now.delay ∧
        (now.down = now.up → offset = now.offset) := by
  have near : nearWorld.Moderate 10 := ⟨by decide, by decide, by decide⟩
  have stepped : World.Moderate 10 { nearWorld with offset := 250 } :=
    ⟨by decide, by decide, by decide⟩
  have other : World.Moderate 10 ⟨70, 2000, 2000⟩ := ⟨by decide, by decide, by decide⟩
  have made : filterCreate .movingAverage 10 = some someSettings.delayFilter := rfl
  have happens :
      Runs.Along worldStep (Happens 10) (created someSettings, nearWorld) nearEvents := by
    refine ⟨⟨rfl, .inr (.inr rfl), near⟩, ⟨⟨rfl, rfl⟩, .inr (.inr rfl), near⟩,
      ⟨rfl, .inr (.inr rfl), near⟩,
      ⟨⟨rfl, rfl⟩, .inr (.inl ⟨⟨?_, by decide, rfl⟩, rfl, rfl⟩), stepped⟩,
      ⟨trivial, .inl rfl, other⟩, ⟨⟨rfl, rfl⟩, .inr (.inr rfl), other⟩,
      ⟨rfl, .inr (.inr rfl), other⟩, trivial⟩
    decide +kernel
  have computed : tsprocUpdateOffset (tsprocDownTs 7000000000 (7000000000 + 70 + 2000)
      (nearEvents.foldl worldStep (created someSettings, nearWorld)).1.clock.tsproc) = some 70 := by
    decide +kernel
  have measured := offset_measured made (by decide) rfl near happens
  generalize nearEvents.foldl worldStep (created someSettings, nearWorld) = now
    at computed measured ⊢
  exact ⟨computed, measured⟩

end World

end LinuxPtp.TimestampProcessor
