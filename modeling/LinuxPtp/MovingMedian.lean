import LinuxPtp.Filters
import Mathlib.Data.List.GetD

/-!
# The moving median

A ring holds the samples, and an array the places of the ring in the order of the samples there.
The place of the oldest sample leaves that array when it is taken by the new one, which then goes
to where its value belongs.

The proof keeps apart what is in the ring, which is the same for both filters, and how the places
are ordered. The median is then the middle of any sorted list of the same elements.
-/

namespace LinuxPtp.Filters

open Tmv RingBuffers

/-! ## The code (`mmedian.c`) -/

/-- `struct mmedian`. -/
structure Mmedian where
  cnt : Nat
  len : Nat
  index : Nat
  order : List Nat
  samples : List Int

/-- `mmedian_create`. -/
def mmedianCreate (length : Int) : Option Mmedian :=
  if length < 1 then none
  else some {
    cnt := 0
    len := length.toNat
    index := 0
    order := List.replicate length.toNat 0
    samples := List.replicate length.toNat 0 }

/-- The first part of `mmedian_sample`: the count with the new sample, and the order without it and
without the sample that it replaces. -/
def mmedianRemove (m : Mmedian) : Nat × List Nat :=
  if m.cnt < m.len then (m.cnt + 1, m.order)
  else
    let i := (m.order.take m.cnt).findIdx (· = m.index)
    (m.cnt, ShiftInsertion.close (m.cnt - 1 - i) i m.order)

/-- `mmedian_sample`. -/
def mmedianSample (m : Mmedian) (sample : Int) : Int × Mmedian :=
  let samples := m.samples.set m.index sample
  let value := fun place => samples.getD place 0
  let (cnt, order) := mmedianRemove m
  let order := ShiftInsertion.insert (fun other => tmvCmp (value other) (value m.index) ≤ 0) m.index
    (cnt - 1) order
  let result :=
    if cnt % 2 = 1 then value (order.getD (cnt / 2) 0)
    else tmvDiv (tmvAdd (value (order.getD (cnt / 2 - 1) 0)) (value (order.getD (cnt / 2) 0))) 2
  (result,
    { m with cnt := cnt, index := (1 + m.index) % m.len, order := order, samples := samples })

/-- `mmedian_reset`. -/
def mmedianReset (m : Mmedian) : Mmedian := { m with cnt := 0, index := 0 }

/-- One event. -/
def mmedianStep (m : Mmedian) : FilterEvent → Mmedian
  | .sample value => (mmedianSample m value).2
  | .reset => mmedianReset m

/-! ## Medians -/

/-- The middle one of numbers in their order, or the mean of the two in the middle, rounded towards
zero. -/
def median (numbers : List Int) : Int :=
  let sorted := numbers.insertionSort (· ≤ ·)
  let middle := numbers.length / 2
  if numbers.length % 2 = 1 then sorted.getD middle 0
  else (sorted.getD (middle - 1) 0 + sorted.getD middle 0).tdiv 2

theorem sort_eq {sorted numbers : List Int} (same : sorted.Perm numbers)
    (ordered : sorted.Pairwise (· ≤ ·)) : numbers.insertionSort (· ≤ ·) = sorted :=
  ((List.perm_insertionSort (· ≤ ·) numbers).trans same.symm).eq_of_pairwise'
    (List.pairwise_insertionSort (· ≤ ·) numbers) ordered

/-! ## The order -/

/-- The ring of the samples. -/
def Mmedian.ring (m : Mmedian) : RingBuffers.Ring Int := ⟨m.samples, m.index, m.cnt⟩

/-- The value at a place. -/
def Mmedian.value (m : Mmedian) (place : Nat) : Int := m.samples.getD place 0

/-- The places in their order. -/
def Mmedian.places (m : Mmedian) : List Nat := m.order.take m.cnt

/-- The places that are in use, in the order of the samples there. -/
structure Mmedian.Ordered (m : Mmedian) : Prop where
  permutation : m.places.Perm (List.range m.cnt)
  sorted : m.places.Pairwise fun i j => m.value i ≤ m.value j

/-- The ring holds the last samples, and their places are in order. -/
structure Mmedian.Holds (m : Mmedian) (samples : List Int) : Prop where
  len : m.samples.length = m.len
  size : m.order.length = m.len
  sound : m.ring.Sound
  window : m.ring.window = samples.rtake m.len
  ordered : m.Ordered

section Order

variable {m : Mmedian} {samples : List Int}

/-- What is left of the order for the place of the new sample to go into. -/
structure Opened (m : Mmedian) (used : List Nat) : Prop where
  removed : ∃ free rest, mmedianRemove m = (used.length + 1, used ++ free :: rest)
  count : (m.ring.push 0).count = used.length + 1
  permutation : (m.index :: used).Perm (List.range (used.length + 1))
  sorted : used.Pairwise fun i j => m.value i ≤ m.value j

theorem Mmedian.Holds.opened (holds : m.Holds samples) : ∃ used, Opened m used := by
  have inside : m.index < m.samples.length := holds.sound.inside
  have bounded : m.cnt ≤ m.samples.length := holds.sound.bounded
  have long : m.places.length = m.cnt :=
    List.length_take_of_le (by rw [holds.size, ← holds.len]; exact bounded)
  by_cases room : m.cnt < m.len
  · have index : m.index = m.cnt := holds.sound.filling (holds.len.symm ▸ room)
    have free : m.cnt < m.order.length := holds.size.symm ▸ room
    refine ⟨m.places, ⟨m.order[m.cnt], m.order.drop (m.cnt + 1), ?_⟩, ?_, ?_,
      holds.ordered.sorted⟩
    · rw [mmedianRemove, if_pos room, long, List.getElem_cons_drop, Mmedian.places,
        List.take_append_drop]
    · rw [long]
      exact if_pos (holds.len.symm ▸ room : m.cnt < m.samples.length)
    · rw [long, index, List.range_succ]
      exact (holds.ordered.permutation.cons m.cnt).trans (List.perm_append_singleton ..).symm
  · have full : m.cnt = m.samples.length :=
      Nat.le_antisymm bounded (holds.len.symm ▸ Nat.not_lt.mp room)
    have member : m.index ∈ m.places :=
      holds.ordered.permutation.mem_iff.mpr (List.mem_range.mpr (full ▸ inside))
    obtain ⟨before, after, split⟩ := List.append_of_mem member
    have distinct : m.places.Nodup := holds.ordered.permutation.nodup_iff.mpr List.nodup_range
    have permutation := holds.ordered.permutation
    have sorted := holds.ordered.sorted
    rw [split] at long distinct permutation sorted
    rw [List.length_append, List.length_cons] at long
    have absent : m.index ∉ before := fun earlier =>
      (List.nodup_append.mp distinct).2.2 _ earlier _ List.mem_cons_self rfl
    have found : m.places.findIdx (· = m.index) = before.length := by
      rw [split, List.findIdx_append, if_neg]
      · simp [List.findIdx_cons]
      · rw [List.findIdx_lt_length]
        rintro ⟨other, earlier, same⟩
        exact absent (of_decide_eq_true same ▸ earlier)
    have whole : m.order = before ++ m.index :: (after ++ m.order.drop m.cnt) := by
      rw [← List.cons_append, ← List.append_assoc, ← split, Mmedian.places,
        List.take_append_drop]
    obtain ⟨free, closed⟩ := ShiftInsertion.close_frees before m.index after (m.order.drop m.cnt)
    have size : (before ++ after).length + 1 = m.cnt := by
      rw [List.length_append]
      omega
    refine ⟨before ++ after, ⟨free, m.order.drop m.cnt, ?_⟩, ?_, ?_, ?_⟩
    · have turns : m.cnt - 1 - before.length = after.length := by omega
      have places : m.order.take m.cnt = m.places := rfl
      rw [mmedianRemove, if_neg room, places, found, size]
      dsimp only
      rw [turns, ← closed, ← whole]
    · rw [size]
      exact if_neg (holds.len.symm ▸ room : ¬ m.cnt < m.samples.length)
    · rw [size]
      exact List.perm_middle.symm.trans permutation
    · exact sorted.sublist ((List.sublist_cons_self ..).append_left before)

theorem length_mmedianRemove (m : Mmedian) : (mmedianRemove m).2.length = m.order.length := by
  rw [mmedianRemove]
  split
  · rfl
  · exact ShiftInsertion.length_close ..

/-- The place of the new sample goes into what is left of the order. -/
theorem Mmedian.Holds.sample (holds : m.Holds samples) (new : Int) :
    (mmedianSample m new).2.Holds (samples ++ [new]) := by
  obtain ⟨used, ⟨free, rest, removed⟩, count, permutation, sorted⟩ := holds.opened
  obtain ⟨next, after⟩ : ∃ next, next = (mmedianSample m new).2 := ⟨_, rfl⟩
  have cnt : next.cnt = used.length + 1 := by
    rw [after, mmedianSample, removed]
  have value : ∀ place ∈ used, next.value place = m.value place := by
    intro place member
    have distinct := permutation.nodup_iff.mpr List.nodup_range
    have differ : m.index ≠ place := fun same =>
      (List.nodup_cons.mp distinct).1 (same ▸ member)
    rw [after, Mmedian.value, mmedianSample, List.getD_eq_getElem?_getD,
      List.getElem?_set_ne differ, ← List.getD_eq_getElem?_getD, Mmedian.value]
  obtain ⟨before, behind, splits, inserted⟩ := ShiftInsertion.insert_splits
    (fun other => decide (tmvCmp (next.value other) (next.value m.index) ≤ 0)) m.index used free
    rest
  have order : next.order = (before ++ m.index :: behind) ++ rest := by
    rw [← inserted, after, mmedianSample, removed]
    rfl
  have places : next.places = before ++ m.index :: behind := by
    rw [Mmedian.places, order, cnt, ← List.length_cons, ← splits.perm.length_eq, List.take_left]
  have same : next.len = m.len := by rw [after, mmedianSample]
  have cells : next.samples = m.samples.set m.index new := by rw [after, mmedianSample]
  have ring : next.ring = m.ring.push new := by
    have index : next.index = (1 + m.index) % m.len := by rw [after, mmedianSample]
    rw [Mmedian.ring, cells, index, cnt, ← count, ← holds.len]
    rfl
  rw [← after]
  refine ⟨?_, ?_, ring ▸ holds.sound.push new, ?_, ?_, ?_⟩
  · rw [cells, List.length_set, same, holds.len]
  · rw [same, ← holds.size, after]
    exact (ShiftInsertion.length_insert ..).trans (length_mmedianRemove m)
  · have len : m.ring.cells.length = m.len := holds.len
    rw [ring, holds.sound.window_push, holds.window, same, len]
    exact rtake_append ..
  · rw [places, cnt]
    exact splits.perm.trans permutation
  · rw [places]
    refine splits.ordered Int.le_trans (fun other _ stays => ?_) (fun other _ moves => ?_) ?_
    · exact tmvCmp_le.mp (of_decide_eq_true stays)
    · exact Int.le_of_not_le fun below => of_decide_eq_false moves (tmvCmp_le.mpr below)
    · refine sorted.imp_of_mem fun {i j} first second below => ?_
      rw [value i first, value j second]
      exact below

/-- A filter without samples holds none. -/
theorem Mmedian.holds_cleared (len : m.samples.length = m.len) (size : m.order.length = m.len)
    (positive : 0 < m.len) : (mmedianReset m).Holds [] where
  len := len
  size := size
  sound := ⟨len.symm ▸ positive, Nat.zero_le _, fun _ => rfl⟩
  window := by simp [mmedianReset, Mmedian.ring, Ring.window, Ring.live]
  ordered := ⟨by simp [mmedianReset, Mmedian.places], by simp [mmedianReset, Mmedian.places]⟩

theorem Mmedian.Holds.step (holds : m.Holds samples) (event : FilterEvent) :
    (mmedianStep m event).Holds (match event with
      | .sample value => samples ++ [value]
      | .reset => []) := by
  cases event with
  | sample value => exact holds.sample value
  | reset =>
    exact Mmedian.holds_cleared holds.len holds.size
      (holds.len ▸ Nat.zero_lt_of_lt holds.sound.inside)

/-- The filter after events. -/
theorem mmedian_holds {length : Int} (created : mmedianCreate length = some m)
    (events : List FilterEvent) :
    (events.foldl mmedianStep m).len = length.toNat ∧
      (events.foldl mmedianStep m).Holds (sinceReset events) := by
  induction events using List.reverseRecOn with
  | nil =>
    rw [mmedianCreate] at created
    split at created
    · cases created
    next enough =>
      obtain rfl := Option.some.inj created
      refine ⟨rfl, Mmedian.holds_cleared (m := ⟨0, length.toNat, 0, _, _⟩) ?_ ?_ ?_⟩
      · exact List.length_replicate
      · exact List.length_replicate
      · exact Int.lt_toNat.mpr (by omega)
  | append_singleton events event inductionHypothesis =>
    obtain ⟨len, holds⟩ := inductionHypothesis
    rw [List.foldl_append, sinceReset_concat]
    refine ⟨?_, holds.step event⟩
    cases event <;> exact len

theorem Mmedian.Holds.sample_cnt (holds : m.Holds samples) (new : Int) :
    0 < (mmedianSample m new).2.cnt := by
  obtain ⟨used, ⟨free, rest, removed⟩, -⟩ := holds.opened
  rw [mmedianSample, removed]
  exact Nat.succ_pos _

/-- The samples in the order of their values. -/
theorem Mmedian.Holds.sorted_eq (holds : m.Holds samples) :
    (samples.rtake m.len).insertionSort (· ≤ ·) = m.places.map m.value := by
  have bounded : m.cnt ≤ m.samples.length := holds.sound.bounded
  have live : (List.range m.cnt).map m.value = m.ring.live := by
    refine List.ext_getElem (by simp [Mmedian.ring, Ring.live, bounded]) ?_
    intro place first second
    rw [List.length_map, List.length_range] at first
    have inside : place < m.samples.length := Nat.lt_of_lt_of_le first bounded
    simp [Mmedian.ring, Ring.live, Mmedian.value, inside]
  refine sort_eq ?_ (List.pairwise_map.mpr holds.ordered.sorted)
  rw [← holds.window]
  exact ((holds.ordered.permutation.map m.value).trans (live ▸ .refl _)).trans Ring.window_perm.symm

/-- What `mmedian_sample` returns. -/
def Mmedian.middle (m : Mmedian) : Int :=
  if m.cnt % 2 = 1 then m.value (m.order.getD (m.cnt / 2) 0)
  else tmvDiv (tmvAdd (m.value (m.order.getD (m.cnt / 2 - 1) 0))
    (m.value (m.order.getD (m.cnt / 2) 0))) 2

theorem Mmedian.Holds.middle_eq (holds : m.Holds samples) (some : 0 < m.cnt)
    (fits : (samples.rtake m.len).Pairwise fun a b => Fits (a + b)) :
    m.middle = median (samples.rtake m.len) := by
  have count : (samples.rtake m.len).length = m.cnt := holds.window ▸ holds.sound.length_window
  have bounded : m.cnt ≤ m.order.length := holds.size.symm ▸ holds.len ▸ holds.sound.bounded
  have long : m.places.length = m.cnt := List.length_take_of_le bounded
  have read : ∀ place < m.cnt, (m.places.map m.value).getD place 0 =
      m.value (m.order.getD place 0) := by
    intro place inside
    have present : place < m.order.length := Nat.lt_of_lt_of_le inside bounded
    simp [Mmedian.places, List.getD_eq_getElem?_getD, inside, present]
  rw [Mmedian.middle, median, count, holds.sorted_eq]
  split
  · rw [read _ (by omega)]
  · have pairs : (m.places.map m.value).Pairwise fun a b => Fits (a + b) := by
      rw [← holds.sorted_eq]
      refine (List.perm_insertionSort (· ≤ ·) _).symm.pairwise fits fun {a b} fit => ?_
      rw [Int.add_comm]
      exact fit
    have fit : Fits ((m.places.map m.value).getD (m.cnt / 2 - 1) 0 +
        (m.places.map m.value).getD (m.cnt / 2) 0) := by
      have size : (m.places.map m.value).length = m.cnt := by rw [List.length_map, long]
      rw [List.getD_eq_getElem _ _ (by omega), List.getD_eq_getElem _ _ (by omega)]
      exact List.pairwise_iff_getElem.mp pairs _ _ _ _ (by omega)
    rw [read _ (by omega), read _ (by omega)] at fit ⊢
    rw [tmvDiv, tmvAdd, int64_of_fits fit]
    rfl

end Order

/-- The order has the places in use, sorted by the last samples, which are there, and what is
returned for a sample is the median of the last ones.

Proof: the ring holds the last samples, and the order of the places is sorted by them. A sample
takes the oldest place out of the order and is inserted where it belongs, which keeps both. -/
theorem median_of_window {length : Int} {m : Mmedian} (created : mmedianCreate length = some m)
    (events : List FilterEvent) :
    let now := events.foldl mmedianStep m
    now.Ordered ∧ (now.places.map now.value).Perm (lastSamples length.toNat events) ∧
    ∀ new : Int,
      (lastSamples length.toNat (events ++ [.sample new])).Pairwise (fun a b => Fits (a + b)) →
      (mmedianSample now new).1 =
        median (lastSamples length.toNat (events ++ [.sample new])) := by
  obtain ⟨len, holds⟩ := mmedian_holds created events
  refine ⟨holds.ordered, ?_, fun new fits => ?_⟩
  · rw [← holds.sorted_eq, len]
    exact List.perm_insertionSort ..
  · obtain ⟨also, next⟩ := mmedian_holds created (events ++ [.sample new])
    rw [List.foldl_append] at also next
    rw [lastSamples, ← also] at fits ⊢
    exact next.middle_eq (holds.sample_cnt new) fits

/-- A filter of three samples that is empty. -/
def emptyMedian : Mmedian := ⟨0, 3, 0, [0, 0, 0], [0, 0, 0]⟩

theorem median_of_window_some :
    let now := someSamples.foldl mmedianStep emptyMedian
    now.Ordered ∧ (now.places.map now.value).Perm (lastSamples 3 someSamples) ∧
    (mmedianSample now 10).1 = median (lastSamples 3 (someSamples ++ [.sample 10])) := by
  have created : mmedianCreate 3 = some emptyMedian := rfl
  obtain ⟨ordered, kept, returned⟩ := median_of_window created someSamples
  exact ⟨ordered, kept, returned 10 (by decide)⟩

example : (mmedianSample (someSamples.foldl mmedianStep emptyMedian) 10).1 = 5 := by decide

end LinuxPtp.Filters
