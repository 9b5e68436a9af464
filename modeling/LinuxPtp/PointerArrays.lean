import Mathlib.Data.List.Basic
import Mathlib.Data.Nat.Log
import Mathlib.Data.PNat.Basic
import Mathlib.Order.Bounds.Basic

/-!
# Growing pointer arrays

`parray_extend` of `util.c` finds the end of an array by its terminator, and its capacity by
doubling one until the elements and the terminator have a place. The counters are of type `int`:
where one overflows, or a cell outside the array is used, the model stops with a fault.

Elements go in behind the last one until their list is ended by its terminator. The array is a
list of cells, of which only those that were asked for may be used; a run that never faults and
represents the elements that were put in is what growing as it should means.
-/

namespace LinuxPtp.PointerArrays

variable {α : Type}

/-- What C leaves undefined: an overflow of an `int`, or a cell that is not there. -/
inductive Fault where
  | overflow
  | outside
  deriving DecidableEq

/-- A result of type `int` that is not negative. -/
def int (result : Nat) : Except Fault Nat :=
  if result < 2 ^ 31 then .ok result else .error .overflow

/-- The number of pointers before `NULL`, counted from a start. -/
def countTo : List (Option α) → Nat → Except Fault Nat
  | [], _ => .error .outside
  | none :: _, count => .ok count
  | some _ :: rest, count => do
    countTo rest (← int (count + 1))

/-- `alloced` doubled until it is no longer below a number. -/
def doubled (alloced : ℕ+) (need : Nat) : Except Fault ℕ+ :=
  if (alloced : Nat) < need then
    if (alloced : Nat) * 2 < 2 ^ 31 then doubled (alloced * 2) need
    else .error .overflow
  else .ok alloced
termination_by need - alloced
decreasing_by
  have positive := alloced.pos
  rw [PNat.mul_coe, PNat.val_ofNat]
  omega

/-- The cells after a reallocation. New cells hold anything. -/
def xrealloc (fresh : Nat → Option α) (cells : List (Option α)) (size : Nat) : List (Option α) :=
  cells.take size ++ (List.range' cells.length (size - cells.length)).map fresh

/-- A pointer written to a cell. -/
def store (cells : List (Option α)) (index : Nat) (p : Option α) :
    Except Fault (List (Option α)) :=
  if index < cells.length then .ok (cells.set index p) else .error .outside

/-- The pointers before `NULL`, written one behind the other. -/
def storeAll : List (Option α) → Nat → List (Option α) → Except Fault (Nat × List (Option α))
  | [], _, _ => .error .outside
  | none :: _, len, cells => .ok (len, cells)
  | some p :: rest, len, cells => do
    let cells ← store cells (len - 1) (some p)
    storeAll rest (← int (len + 1)) cells

/-- The array is reallocated where its capacity is below a number. -/
def reserve (fresh : Nat → Option α) (cells : List (Option α)) (alloced : ℕ+) (need : Nat) :
    Except Fault (List (Option α)) :=
  if (alloced : Nat) < need then
    match doubled alloced need with
    | .error fault => .error fault
    | .ok alloced => .ok (xrealloc fresh cells alloced)
  else .ok cells

/-- An empty array. -/
def parrayNew : List (Option α) := [none]

/-- The pointers of an argument list, up to its `NULL`, are appended. -/
def parrayExtend (fresh : Nat → Option α) (cells args : List (Option α)) :
    Except Fault (List (Option α)) := do
  let len ← int ((← countTo cells 0) + 1)
  let ilen ← countTo args 0
  let alloced ← doubled 1 len
  let need ← int (len + ilen)
  let cells ← reserve fresh cells alloced need
  let (len, stored) ← storeAll args len cells
  store stored (len - 1) none

/-- One pointer is appended. -/
def parrayAppend (fresh : Nat → Option α) (cells : List (Option α)) (p : Option α) :
    Except Fault (List (Option α)) :=
  parrayExtend fresh cells [p, none]

/-- A call with pointers that are not `NULL`. -/
inductive Call (α : Type) where
  | append (fresh : Nat → Option α) (p : α)
  | extend (fresh : Nat → Option α) (ps : List α)

/-- The pointers that a call appends. -/
def Call.pointers : Call α → List α
  | .append _ p => [p]
  | .extend _ ps => ps

def Call.perform (cells : List (Option α)) : Call α → Except Fault (List (Option α))
  | .append fresh p => parrayAppend fresh cells (some p)
  | .extend fresh ps => parrayExtend fresh cells (ps.map some ++ [none])

/-- The calls made one after the other, on an empty array. -/
def run (calls : List (Call α)) : Except Fault (List (Option α)) :=
  calls.foldlM Call.perform parrayNew

/-- Everything that was appended, in order. -/
def appended (calls : List (Call α)) : List α := calls.flatMap Call.pointers

/-- The array holds the elements and the terminator, and its capacity is the smallest power of two
with a place for them; the next call finds the same capacity. -/
structure Holds (cells : List (Option α)) (elements : List α) : Prop where
  content : elements.map some ++ [none] <+: cells
  capacity : IsLeast {size | (∃ bits, size = 2 ^ bits) ∧ elements.length + 1 ≤ size} cells.length
  recomputed : (doubled 1 (elements.length + 1)).map PNat.val = .ok cells.length

/-- After every call, no write having left the array, the array is as it should be. -/
def Meets (calls : List (Call α)) : Prop :=
  ∀ made, made <+: calls → ∃ cells, run made = .ok cells ∧ Holds cells (appended made)

/-! ## The loops -/

variable {need : Nat} {cells front back : List (Option α)} {elements added : List α}

theorem int_ok {result : Nat} (fits : result < 2 ^ 31) : int result = .ok result := if_pos fits

theorem int_over {result : Nat} (beyond : ¬ result < 2 ^ 31) : int result = .error .overflow :=
  if_neg beyond

/-- Counting stops at the terminator, or when the counter overflows. -/
theorem countTo_ends (elements : List α) (rest : List (Option α)) (count : Nat)
    (fits : count < 2 ^ 31) :
    countTo (elements.map some ++ none :: rest) count = int (count + elements.length) := by
  induction elements generalizing count with
  | nil => exact (int_ok fits).symm
  | cons element elements inductionHypothesis =>
    have further : count + (element :: elements).length = count + 1 + elements.length := by
      rw [List.length_cons]
      omega
    rw [further]
    by_cases next : count + 1 < 2 ^ 31
    · have counted := inductionHypothesis (count + 1) next
      simp only [List.map_cons, List.cons_append, countTo, int_ok next]
      exact counted
    · have beyond : int (count + 1 + elements.length) = .error .overflow := int_over (by omega)
      rw [beyond]
      simp only [List.map_cons, List.cons_append, countTo, int_over next]
      rfl

/-- Doubling a smaller power of two ends at the smallest one that is large enough. -/
theorem doubled_fits (fits : need ≤ 2 ^ 30) (steps : Nat) :
    ∀ bits, bits + steps = Nat.clog 2 need →
      doubled (2 ^ bits) need = .ok (2 ^ Nat.clog 2 need) := by
  have bounded : Nat.clog 2 need ≤ 30 := Nat.clog_le_of_le_pow fits
  induction steps with
  | zero =>
    intro bits last
    have enough : ¬ 2 ^ bits < need := by
      rw [show bits = Nat.clog 2 need from last]
      exact Nat.not_lt.mpr (Nat.le_pow_clog (by decide) need)
    rw [doubled, PNat.pow_coe, PNat.val_ofNat, if_neg enough, show bits = _ from last]
  | succ steps inductionHypothesis =>
    intro bits more
    have small : 2 ^ bits < need := Nat.pow_lt_of_lt_clog (by omega)
    have room : 2 ^ bits * 2 < 2 ^ 31 := by
      rw [← Nat.pow_succ]
      exact Nat.pow_lt_pow_right (by decide) (by omega)
    rw [doubled, PNat.pow_coe, PNat.val_ofNat, if_pos small, if_pos room, ← pow_succ]
    exact inductionHypothesis (bits + 1) (by omega)

/-- Above the largest power of two of an `int`, the doubling overflows. -/
theorem doubled_over (beyond : 2 ^ 30 < need) (steps : Nat) :
    ∀ bits, bits + steps = 30 → doubled (2 ^ bits) need = .error .overflow := by
  induction steps with
  | zero =>
    intro bits last
    obtain rfl : bits = 30 := last
    rw [doubled, PNat.pow_coe, PNat.val_ofNat, if_pos beyond, if_neg (by decide)]
  | succ steps inductionHypothesis =>
    intro bits more
    have below : 2 ^ bits ≤ 2 ^ 29 := Nat.pow_le_pow_right (by decide) (by omega)
    have small : 2 ^ bits < need := by omega
    rw [doubled, PNat.pow_coe, PNat.val_ofNat, if_pos small, if_pos (by omega), ← pow_succ]
    exact inductionHypothesis (bits + 1) (by omega)

/-- From one on, every smallest power of two is found. -/
theorem doubled_one (fits : need ≤ 2 ^ 30) : doubled 1 need = .ok (2 ^ Nat.clog 2 need) :=
  doubled_fits fits (Nat.clog 2 need) 0 (Nat.zero_add _)

/-- The capacity for a smaller need is doubled to the one for a larger need. -/
theorem doubled_further {len : Nat} (fits : need ≤ 2 ^ 30) (more : len ≤ need) :
    doubled (2 ^ Nat.clog 2 len) need = .ok (2 ^ Nat.clog 2 need) := by
  have smaller : Nat.clog 2 len ≤ Nat.clog 2 need := Nat.clog_mono_right 2 more
  exact doubled_fits fits (Nat.clog 2 need - Nat.clog 2 len) _ (by omega)

/-- Within the cells behind the front, the pointers are written over what was there. -/
theorem storeAll_inside (added : List α) (front back : List (Option α))
    (room : added.length ≤ back.length) (fits : front.length + 1 + added.length < 2 ^ 31) :
    storeAll (added.map some ++ [none]) (front.length + 1) (front ++ back) =
      .ok (front.length + 1 + added.length, front ++ added.map some ++ back.drop added.length) := by
  induction added generalizing front back with
  | nil => simp [storeAll]
  | cons p added inductionHypothesis =>
    cases back with
    | nil => exact absurd room (by simp)
    | cons old back =>
      rw [List.length_cons] at room fits
      have place : front.length + 1 - 1 < (front ++ old :: back).length := by
        simp
      have written : (front ++ old :: back).set (front.length + 1 - 1) (some p) =
          (front ++ [some p]) ++ back := by
        simp
      have rest := inductionHypothesis (front ++ [some p]) back (by
        rw [List.length_cons] at room
        omega) (by rw [List.length_append, List.length_singleton]; omega)
      rw [List.length_append, List.length_singleton] at rest
      have next : int (front.length + 1 + 1) = .ok (front.length + 1 + 1) := int_ok (by omega)
      simp only [List.map_cons, List.cons_append, storeAll, store, if_pos place, written, next]
      refine rest.trans ?_
      simp only [List.length_cons, List.append_assoc, List.cons_append, List.nil_append,
        List.drop_succ_cons]
      congr 2
      omega

/-! ## One call -/

/-- The elements stand at the front, before the terminator, in an array of the smallest power of
two with a place for both. -/
structure Represents (cells : List (Option α)) (elements : List α) : Prop where
  content : ∃ rest, cells = elements.map some ++ none :: rest
  capacity : cells.length = 2 ^ Nat.clog 2 (elements.length + 1)

theorem represents_new : Represents (parrayNew : List (Option α)) [] where
  content := ⟨[], rfl⟩
  capacity := by
    rw [List.length_nil, Nat.zero_add, Nat.clog_one_right]
    rfl

theorem Represents.holds (represents : Represents cells elements)
    (fits : elements.length + 1 ≤ 2 ^ 30) : Holds cells elements where
  content := by
    obtain ⟨rest, rfl⟩ := represents.content
    exact ⟨rest, by simp⟩
  capacity := by
    rw [represents.capacity]
    refine ⟨⟨⟨_, rfl⟩, Nat.le_pow_clog (by decide) _⟩, ?_⟩
    rintro _ ⟨⟨bits, rfl⟩, enough⟩
    exact Nat.pow_le_pow_right (by decide) (Nat.clog_le_of_le_pow enough)
  recomputed := by
    rw [doubled_one fits, represents.capacity]
    exact congrArg Except.ok (PNat.pow_coe ..)

/-- Reallocated to a larger size, the array keeps what it held, with new cells behind. -/
theorem xrealloc_larger (fresh : Nat → Option α) (front rest : List (Option α)) {size : Nat}
    (larger : (front ++ rest).length ≤ size) :
    ∃ more, xrealloc fresh (front ++ rest) size = front ++ (rest ++ more) ∧
      (front ++ (rest ++ more)).length = size := by
  let more := (List.range' (front ++ rest).length (size - (front ++ rest).length)).map fresh
  have count : more.length = size - (front ++ rest).length := by
    rw [List.length_map, List.length_range']
  refine ⟨more, ?_, ?_⟩
  · rw [xrealloc, List.take_of_length_le larger, List.append_assoc]
  · rw [← List.append_assoc, List.length_append, count]
    omega

/-- New elements and the terminator are written where there is room for them. -/
theorem stored_behind (front : List (Option α)) (room : added.length < back.length)
    (fits : front.length + 1 + added.length < 2 ^ 31) :
    (do
      let (len, stored) ← storeAll (added.map some ++ [none]) (front.length + 1) (front ++ back)
      store stored (len - 1) none) =
      .ok (front ++ added.map some ++ none :: back.drop (added.length + 1)) := by
  obtain ⟨old, rest, behind⟩ : ∃ old rest, back.drop added.length = old :: rest :=
    ⟨_, _, (List.getElem_cons_drop room).symm⟩
  have tail : back.drop (added.length + 1) = rest := by
    rw [← List.drop_drop, behind]
    rfl
  have last : front.length + 1 + added.length - 1 = (front ++ added.map some).length := by
    rw [List.length_append, List.length_map]
    omega
  have inside : (front ++ added.map some).length <
      (front ++ added.map some ++ old :: rest).length := by
    simp
  rw [storeAll_inside added front back (Nat.le_of_lt room) fits, behind, tail]
  change store (front ++ added.map some ++ old :: rest) (front.length + 1 + added.length - 1)
    none = _
  rw [last, store, if_pos inside]
  simp

/-- After the test of the capacity, there is one for all elements and the terminator. -/
theorem reserve_fits (represents : Represents cells elements) (fresh : Nat → Option α)
    (more : elements.length + 1 ≤ need) (fits : need ≤ 2 ^ 30) :
    ∃ rest, reserve fresh cells (2 ^ Nat.clog 2 (elements.length + 1)) need =
        .ok (elements.map some ++ none :: rest) ∧
      (elements.map some ++ none :: rest).length = 2 ^ Nat.clog 2 need := by
  obtain ⟨rest, rfl⟩ := represents.content
  have capacity := represents.capacity
  rw [reserve, PNat.pow_coe, PNat.val_ofNat]
  split
  next small =>
    have larger := Nat.pow_le_pow_right (n := 2) (by decide) (Nat.clog_mono_right 2 more)
    obtain ⟨fill, enlarged, size⟩ := xrealloc_larger fresh (elements.map some) (none :: rest)
      (capacity.trans_le larger)
    refine ⟨rest ++ fill, ?_, size⟩
    simp only [doubled_further fits more, PNat.pow_coe, PNat.val_ofNat, enlarged]
    rfl
  next enough =>
    refine ⟨rest, rfl, capacity.trans (congrArg (2 ^ ·) (Nat.le_antisymm ?_ ?_))⟩
    · exact Nat.clog_mono_right 2 more
    · exact Nat.clog_le_of_le_pow (Nat.not_lt.mp enough)

theorem reserve_over (fresh : Nat → Option α) (cells : List (Option α)) (beyond : 2 ^ 30 < need)
    {bits : Nat} (small : bits ≤ 30) :
    reserve fresh cells (2 ^ bits) need = .error .overflow := by
  have below : 2 ^ bits ≤ 2 ^ 30 := Nat.pow_le_pow_right (by decide) small
  rw [reserve, PNat.pow_coe, PNat.val_ofNat, if_pos (by omega)]
  rw [doubled_over beyond (30 - bits) bits (by omega)]

/-- What a call does after it has counted the elements. -/
theorem parrayExtend_counted (represents : Represents cells elements) (fresh : Nat → Option α)
    (here : elements.length + 1 ≤ 2 ^ 30) :
    parrayExtend fresh cells (added.map some ++ [none]) = (do
      let ilen ← int added.length
      let need ← int (elements.length + 1 + ilen)
      let cells ← reserve fresh cells (2 ^ Nat.clog 2 (elements.length + 1)) need
      let (len, stored) ← storeAll (added.map some ++ [none]) (elements.length + 1) cells
      store stored (len - 1) none) := by
  obtain ⟨rest, rfl⟩ := represents.content
  have counted : countTo (elements.map some ++ none :: rest) 0 = .ok elements.length := by
    rw [countTo_ends elements rest 0 (by decide), Nat.zero_add, int_ok (by omega)]
  have arguments : countTo (added.map some ++ [none]) 0 = int added.length := by
    rw [countTo_ends added [] 0 (by decide), Nat.zero_add]
  have len : int (elements.length + 1) = .ok (elements.length + 1) := int_ok (by omega)
  simp only [parrayExtend, bind, Except.bind, counted, len, arguments, doubled_one here]

/-- While everything fits, a call appends its pointers. -/
theorem parrayExtend_fits (represents : Represents cells elements) (fresh : Nat → Option α)
    (fits : (elements ++ added).length + 1 ≤ 2 ^ 30) :
    ∃ after, parrayExtend fresh cells (added.map some ++ [none]) = .ok after ∧
      Represents after (elements ++ added) := by
  rw [List.length_append] at fits
  have ilen : int added.length = .ok added.length := int_ok (by omega)
  have need : int (elements.length + 1 + added.length) =
      .ok (elements.length + 1 + added.length) := int_ok (by omega)
  have more : elements.length + 1 ≤ elements.length + 1 + added.length := Nat.le_add_right ..
  obtain ⟨rest, room, capacity⟩ := reserve_fits represents fresh more (by omega)
  have enough := Nat.le_pow_clog (b := 2) (by decide) (elements.length + 1 + added.length)
  rw [← capacity, List.length_append, List.length_map] at enough
  have inside : added.length < (none :: rest).length := by omega
  have stored := stored_behind (elements.map some) inside (by rw [List.length_map]; omega)
  rw [List.length_map] at stored
  refine ⟨elements.map some ++ added.map some ++ none :: (none :: rest).drop (added.length + 1),
    ?_, ⟨_, by rw [List.map_append]⟩, ?_⟩
  · rw [parrayExtend_counted represents fresh (by omega)]
    simp only [bind, Except.bind, ilen, need, room]
    exact stored
  · have sum : elements.length + 1 + added.length = (elements ++ added).length + 1 := by
      rw [List.length_append]
      omega
    rw [← sum, ← capacity]
    simp only [List.length_append, List.length_map, List.length_cons, List.length_drop] at inside ⊢
    omega

/-- Otherwise a counter overflows. -/
theorem parrayExtend_over (represents : Represents cells elements) (fresh : Nat → Option α)
    (here : elements.length + 1 ≤ 2 ^ 30) (beyond : 2 ^ 30 < (elements ++ added).length + 1) :
    parrayExtend fresh cells (added.map some ++ [none]) = .error .overflow := by
  rw [List.length_append] at beyond
  rw [parrayExtend_counted represents fresh here]
  by_cases given : added.length < 2 ^ 31
  · by_cases sum : elements.length + 1 + added.length < 2 ^ 31
    · have beyond : 2 ^ 30 < elements.length + 1 + added.length := by omega
      have refused := reserve_over fresh cells beyond (Nat.clog_le_of_le_pow here)
      simp only [bind, Except.bind, int_ok given, int_ok sum, refused]
    · simp only [bind, Except.bind, int_ok given, int_over sum]
  · simp only [bind, Except.bind, int_over given]

/-! ## A run -/

/-- Every call appends its pointers, or a counter overflows. -/
theorem perform_step (represents : Represents cells elements)
    (here : elements.length + 1 ≤ 2 ^ 30) (call : Call α) :
    if (elements ++ call.pointers).length + 1 ≤ 2 ^ 30 then
      ∃ after, call.perform cells = .ok after ∧ Represents after (elements ++ call.pointers)
    else call.perform cells = .error .overflow := by
  cases call with
  | append fresh p =>
    split
    next fits => exact parrayExtend_fits represents fresh fits
    next beyond => exact parrayExtend_over represents fresh here (Nat.not_le.mp beyond)
  | extend fresh ps =>
    split
    next fits => exact parrayExtend_fits represents fresh fits
    next beyond => exact parrayExtend_over represents fresh here (Nat.not_le.mp beyond)

/-- A run goes on as long as the elements and the terminator fit. -/
theorem performed (calls : List (Call α)) (represents : Represents cells elements)
    (here : elements.length + 1 ≤ 2 ^ 30) :
    if (elements ++ appended calls).length + 1 ≤ 2 ^ 30 then
      ∃ after, calls.foldlM Call.perform cells = .ok after ∧
        Represents after (elements ++ appended calls)
    else calls.foldlM Call.perform cells = .error .overflow := by
  induction calls generalizing cells elements with
  | nil =>
    have same : elements ++ appended [] = elements := List.append_nil elements
    rw [same, if_pos here]
    exact ⟨cells, rfl, represents⟩
  | cons call calls inductionHypothesis =>
    have parts : elements ++ appended (call :: calls) =
        (elements ++ call.pointers) ++ appended calls := (List.append_assoc ..).symm
    have step := perform_step represents here call
    rw [parts]
    by_cases fits : (elements ++ call.pointers).length + 1 ≤ 2 ^ 30
    · rw [if_pos fits] at step
      obtain ⟨after, done, now⟩ := step
      have rest := inductionHypothesis now fits
      simpa only [List.foldlM_cons, done, bind, Except.bind] using rest
    · have beyond : ¬ ((elements ++ call.pointers) ++ appended calls).length + 1 ≤ 2 ^ 30 := by
        rw [List.length_append]
        omega
      rw [if_neg fits] at step
      rw [if_neg beyond, List.foldlM_cons, step]
      rfl

/-- A run on an empty array. -/
theorem run_ends (calls : List (Call α)) :
    if (appended calls).length + 1 ≤ 2 ^ 30 then
      ∃ cells, run calls = .ok cells ∧ Represents cells (appended calls)
    else run calls = .error .overflow :=
  performed calls represents_new (Nat.one_le_two_pow)

/-- Fewer calls append a part of the elements. -/
theorem length_appended_le {made calls : List (Call α)} (part : made <+: calls) :
    (appended made).length ≤ (appended calls).length := by
  obtain ⟨rest, rfl⟩ := part
  rw [appended, appended, List.flatMap_append, List.length_append]
  omega

/-- The arrays grow as they should exactly as long as the elements with their terminator are not
more than the largest power of two of an `int`.

Proof: an array has room for the next power of two of its elements, which is doubled when it is
full. The last doubling of an `int` that does not overflow is to `2 ^ 30`; the array that would need
one more is where a run ends. -/
theorem meets_iff_fits (calls : List (Call α)) :
    Meets calls ↔ (appended calls).length + 1 ≤ 2 ^ 30 := by
  constructor
  · intro meets
    by_contra beyond
    have fails := run_ends calls
    obtain ⟨cells, done, -⟩ := meets calls List.prefix_rfl
    rw [if_neg beyond, done] at fails
    cases fails
  · intro fits made part
    have few : (appended made).length + 1 ≤ 2 ^ 30 := by
      have less := length_appended_le part
      omega
    have goes := run_ends made
    rw [if_pos few] at goes
    obtain ⟨cells, done, represents⟩ := goes
    exact ⟨cells, done, represents.holds few⟩

/-- The pointers of repeated calls. -/
theorem length_appended_replicate (count : Nat) (fresh : Nat → Option α) (p : α) :
    (appended (List.replicate count (Call.append fresh p))).length = count := by
  induction count with
  | zero => rfl
  | succ count inductionHypothesis =>
    have parts : appended (List.replicate (count + 1) (Call.append fresh p)) =
        p :: appended (List.replicate count (Call.append fresh p)) := rfl
    rw [parts, List.length_cons, inductionHypothesis]

/-- A pointer appended too often. -/
theorem not_meets_replicate {count : Nat} (many : 2 ^ 30 ≤ count) (fresh : Nat → Option α) (p : α) :
    ¬ Meets (List.replicate count (Call.append fresh p)) := by
  intro meets
  obtain ⟨cells, done, -⟩ := meets _ List.prefix_rfl
  have fails := run_ends (List.replicate count (Call.append fresh p))
  rw [length_appended_replicate, if_neg (by omega), done] at fails
  cases fails

/-- The doubling overflows when the largest power of two of an `int` is one cell too small. -/
theorem overflows_at_the_end :
    ¬ Meets (List.replicate (2 ^ 30) (Call.append (fun _ => none) ())) :=
  not_meets_replicate (Nat.le_refl _) _ _

end LinuxPtp.PointerArrays
