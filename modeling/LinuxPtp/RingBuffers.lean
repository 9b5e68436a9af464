import Mathlib.Data.List.DropRight

/-!
# Ring buffers

The last elements of a sequence are kept in an array of their greatest number. A new element goes
to the place of the oldest, or behind the others while there is room. Before it is full, the cells
behind the elements may hold anything.
-/

namespace RingBuffers

universe u
variable {α : Type u}

/-- The array, the place of the next element, and how many elements there are. -/
structure Ring (α : Type u) where
  cells : List α
  index : Nat
  count : Nat

namespace Ring

/-- A new element. -/
def push (ring : Ring α) (new : α) : Ring α where
  cells := ring.cells.set ring.index new
  index := (1 + ring.index) % ring.cells.length
  count := if ring.count < ring.cells.length then ring.count + 1 else ring.count

/-- The elements as they lie. -/
def live (ring : Ring α) : List α := ring.cells.take ring.count

/-- The cells behind them. -/
def spare (ring : Ring α) : List α := ring.cells.drop ring.count

/-- The elements from the oldest on. -/
def window (ring : Ring α) : List α := ring.live.drop ring.index ++ ring.live.take ring.index

/-- The next element goes behind the others while there is room, and else to one of them. -/
structure Sound (ring : Ring α) : Prop where
  inside : ring.index < ring.cells.length
  bounded : ring.count ≤ ring.cells.length
  filling : ring.count < ring.cells.length → ring.index = ring.count

variable {ring : Ring α} {new : α}

theorem window_perm : ring.window.Perm ring.live :=
  List.perm_append_comm.trans (by rw [List.take_append_drop])

theorem Sound.length_live (sound : ring.Sound) : ring.live.length = ring.count :=
  List.length_take_of_le sound.bounded

theorem live_append_spare (ring : Ring α) : ring.live ++ ring.spare = ring.cells :=
  List.take_append_drop ..

/-- A ring with room has a cell behind its elements, for the next one. -/
theorem Sound.free (sound : ring.Sound) (room : ring.count < ring.cells.length) :
    ∃ old rest, ring.spare = old :: rest ∧ ring.live.length = ring.index := by
  refine ⟨ring.cells[ring.count], ring.cells.drop (ring.count + 1), ?_, ?_⟩
  · rw [spare, List.getElem_cons_drop]
  · rw [sound.length_live, sound.filling room]

/-- The elements of a full ring: those before the oldest, the oldest, and those behind it. -/
theorem Sound.full (sound : ring.Sound) (full : ¬ ring.count < ring.cells.length) :
    ∃ newer old older, ring.cells = newer ++ old :: older ∧ newer.length = ring.index ∧
      ring.live = newer ++ old :: older := by
  have count : ring.count = ring.cells.length := Nat.le_antisymm sound.bounded (Nat.not_lt.mp full)
  have inside := sound.inside
  have whole : ring.cells = ring.cells.take ring.index ++
      ring.cells[ring.index] :: ring.cells.drop (ring.index + 1) := by
    rw [List.getElem_cons_drop, List.take_append_drop]
  refine ⟨_, _, _, whole, List.length_take_of_le (Nat.le_of_lt sound.inside), ?_⟩
  rw [live, count, List.take_length]
  exact whole

/-! ## A new element -/

@[simp] theorem length_push : (ring.push new).cells.length = ring.cells.length :=
  List.length_set

/-- The place of the next element goes once around. -/
theorem Sound.index_push (sound : ring.Sound) (new : α) : (ring.push new).index =
    if ring.index + 1 < ring.cells.length then ring.index + 1 else 0 := by
  have inside := sound.inside
  have index : (ring.push new).index = (1 + ring.index) % ring.cells.length := rfl
  rw [index, Nat.add_comm]
  split
  next further => exact Nat.mod_eq_of_lt further
  next around =>
    have last : ring.index + 1 = ring.cells.length := by omega
    rw [last, Nat.mod_self]

theorem Sound.push (sound : ring.Sound) (new : α) : (ring.push new).Sound := by
  have inside := sound.inside
  have bounded := sound.bounded
  have filling := sound.filling
  have index := sound.index_push new
  have count : (ring.push new).count =
      if ring.count < ring.cells.length then ring.count + 1 else ring.count := rfl
  constructor
  · rw [index, length_push]
    split <;> omega
  · rw [count, length_push]
    split <;> omega
  · rw [index, count, length_push]
    intro room
    split at room
    · rw [if_pos (by omega), if_pos (by omega), filling (by omega)]
    · omega

/-- While there is room, the element goes behind the others. -/
theorem Sound.push_room (sound : ring.Sound) (room : ring.count < ring.cells.length) (new : α) :
    (ring.push new).live = ring.live ++ [new] ∧ (ring.push new).spare = ring.spare.tail := by
  obtain ⟨old, rest, free, place⟩ := sound.free room
  have whole : ring.cells = ring.live ++ old :: rest := free ▸ ring.live_append_spare.symm
  have cells : (ring.push new).cells = (ring.live ++ [new]) ++ rest := by
    rw [Ring.push, whole, ← place]
    simp
  have count : (ring.push new).count = (ring.live ++ [new]).length := by
    rw [Ring.push, List.length_append, sound.length_live]
    exact if_pos room
  constructor
  · rw [Ring.live, cells, count, List.take_left]
  · rw [spare, cells, count, List.drop_left, free, List.tail_cons]

/-- Otherwise it takes the place of the oldest. -/
theorem Sound.push_full (sound : ring.Sound) (full : ¬ ring.count < ring.cells.length) (new : α) :
    ∃ newer old older, newer.length = ring.index ∧ ring.live = newer ++ old :: older ∧
      (ring.push new).live = newer ++ new :: older ∧ (ring.push new).spare = [] := by
  obtain ⟨newer, old, older, whole, place, live⟩ := sound.full full
  refine ⟨newer, old, older, place, live, ?_⟩
  have cells : (ring.push new).cells = newer ++ new :: older := by
    rw [Ring.push, whole, ← place]
    simp
  have count : (ring.push new).count = (ring.push new).cells.length := by
    rw [length_push]
    exact (if_neg full).trans (Nat.le_antisymm sound.bounded (Nat.not_lt.mp full))
  constructor
  · rw [Ring.live, count, List.take_length, cells]
  · rw [spare, count, List.drop_length]

/-- Nothing new is behind the elements. -/
theorem Sound.spare_push (sound : ring.Sound) {other : α} (member : other ∈ (ring.push new).spare) :
    other ∈ ring.spare := by
  by_cases room : ring.count < ring.cells.length
  · rw [(sound.push_room room new).2] at member
    exact List.mem_of_mem_tail member
  · obtain ⟨newer, old, older, -, -, -, spare⟩ := sound.push_full room new
    rw [spare] at member
    cases member

theorem Sound.window_room (sound : ring.Sound) (room : ring.count < ring.cells.length) :
    ring.window = ring.live := by
  have place : ring.live.length = ring.index := by rw [sound.length_live, sound.filling room]
  rw [window, ← place, List.drop_length, List.take_length, List.nil_append]

theorem Sound.length_window (sound : ring.Sound) : ring.window.length = ring.count :=
  window_perm.length_eq.trans sound.length_live

/-- The window goes on by the new element, and loses what is more than there are cells. -/
theorem Sound.window_push (sound : ring.Sound) (new : α) :
    (ring.push new).window = (ring.window ++ [new]).rtake ring.cells.length := by
  have inside := sound.inside
  by_cases room : ring.count < ring.cells.length
  · have live := (sound.push_room room new).1
    have short : (ring.live ++ [new]).length ≤ ring.cells.length := by
      rw [List.length_append, sound.length_live]
      exact room
    have all : (ring.push new).window = ring.live ++ [new] := by
      rw [window, live, sound.index_push new]
      split
      · have place : ring.index + 1 = (ring.live ++ [new]).length := by
          rw [List.length_append, sound.length_live, sound.filling room]
          rfl
        rw [place, List.drop_length, List.take_length, List.nil_append]
      · rw [List.drop_zero, List.take_zero, List.append_nil]
    rw [all, sound.window_room room, List.rtake, Nat.sub_eq_zero_of_le short, List.drop_zero]
  · obtain ⟨newer, old, older, place, live, after, -⟩ := sound.push_full room new
    have before : ring.window = old :: (older ++ newer) := by
      rw [window, live, ← place, List.drop_left, List.take_left, List.cons_append]
    have size : ring.window.length = ring.cells.length :=
      sound.length_window.trans (Nat.le_antisymm sound.bounded (Nat.not_lt.mp room))
    have next : (ring.push new).window = older ++ newer ++ [new] := by
      rw [window, after, sound.index_push new]
      split
      · rw [← place, List.append_cons]
        have behind : newer.length + 1 = (newer ++ [new]).length := by simp
        rw [behind, List.drop_left, List.take_left, List.append_assoc]
      next around =>
        have whole : ring.live.length = ring.cells.length :=
          sound.length_live.trans (sound.length_window.symm.trans size)
        rw [live, List.length_append, List.length_cons] at whole
        obtain rfl : older = [] := List.eq_nil_of_length_eq_zero (by omega)
        simp
    rw [next, List.rtake, List.length_append, size, Nat.add_sub_cancel_left, before]
    rfl

end Ring

/-! ## Read from the newest on -/

/-- An array in which the newest element is at a place that goes on before each element, wherever
it is when there are none. -/
structure Trail (α : Type u) where
  cells : List α
  last : Nat
  count : Nat

namespace Trail

/-- A new element. -/
def push (trail : Trail α) (new : α) : Trail α where
  cells := trail.cells.set ((trail.last + 1) % trail.cells.length) new
  last := (trail.last + 1) % trail.cells.length
  count := if trail.count < trail.cells.length then trail.count + 1 else trail.count

/-- The place of the element that as many came after. -/
def place (trail : Trail α) (newer : Nat) : Nat :=
  (trail.cells.length + trail.last - newer) % trail.cells.length

/-- The elements in the array are the last of a sequence. -/
structure Holds (trail : Trail α) (history : List α) : Prop where
  inside : trail.last < trail.cells.length
  count : trail.count = min history.length trail.cells.length
  back : ∀ newer < trail.count, trail.cells[trail.place newer]? = history.reverse[newer]?

variable {trail : Trail α} {history : List α}

theorem holds_none (inside : trail.last < trail.cells.length) (none : trail.count = 0) :
    trail.Holds [] := by
  refine ⟨inside, ?_, fun newer less => ?_⟩
  · rw [none, List.length_nil, Nat.zero_min]
  · omega

theorem Holds.push (holds : trail.Holds history) (new : α) :
    (trail.push new).Holds (history ++ [new]) := by
  have inside := holds.inside
  have count := holds.count
  have size : (trail.push new).cells.length = trail.cells.length := List.length_set
  have next : (trail.push new).last = (trail.last + 1) % trail.cells.length := rfl
  have more : (trail.push new).count =
      if trail.count < trail.cells.length then trail.count + 1 else trail.count := rfl
  refine ⟨?_, ?_, fun newer less => ?_⟩
  · rw [next, size]
    exact Nat.mod_lt _ (by omega)
  · rw [more, size, List.length_append, List.length_singleton]
    split <;> omega
  · have cells : (trail.push new).cells =
        trail.cells.set ((trail.last + 1) % trail.cells.length) new := rfl
    have around : (trail.last + 1) % trail.cells.length < trail.cells.length :=
      Nat.mod_lt _ (by omega)
    rw [place, size, next, List.reverse_append, List.reverse_singleton, List.singleton_append]
    cases newer with
    | zero =>
      rw [Nat.sub_zero, Nat.add_mod_left, Nat.mod_mod, cells, List.getElem?_set_self around]
      rfl
    | succ newer =>
      have before : newer < trail.count := by
        rw [more] at less
        split at less <;> omega
      have room : newer + 1 < trail.cells.length := by
        rw [more] at less
        split at less <;> omega
      rw [List.getElem?_cons_succ, ← holds.back newer before, cells, place]
      by_cases further : trail.last + 1 < trail.cells.length
      · have same : trail.cells.length + (trail.last + 1) - (newer + 1) =
            trail.cells.length + trail.last - newer := by omega
        rw [Nat.mod_eq_of_lt further, same, List.getElem?_set_ne]
        by_cases behind : newer ≤ trail.last
        · rw [Nat.add_sub_assoc behind, Nat.add_mod_left, Nat.mod_eq_of_lt (by omega)]
          omega
        · rw [Nat.mod_eq_of_lt (by omega)]
          omega
      · have last : trail.last + 1 = trail.cells.length := by omega
        have same : trail.cells.length + trail.last - newer =
            trail.cells.length + (trail.cells.length - (newer + 1)) := by omega
        rw [last, Nat.mod_self, Nat.add_zero, same, Nat.add_mod_left, List.getElem?_set_ne]
        rw [Nat.mod_eq_of_lt (by omega)]
        omega

end Trail

/-- The last elements of a sequence that goes on are the last of the last. -/
theorem rtake_append (length : Nat) (old : List α) (new : α) :
    (old.rtake length ++ [new]).rtake length = (old ++ [new]).rtake length := by
  cases length with
  | zero => simp
  | succ length =>
    rw [List.rtake_concat_succ, List.rtake_concat_succ, List.rtake, List.rtake, List.rtake,
      List.drop_drop, List.length_drop]
    congr 2
    omega

end RingBuffers
