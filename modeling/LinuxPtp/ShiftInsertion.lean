import Mathlib.Data.List.Basic
import Mathlib.Data.List.Induction

/-!
# Insertion by shifting

A new element goes into the used part of an array. The loop begins behind that part and shifts
elements up by one cell as long as they do not stay where they are. What is behind the cell where
it begins is not touched. An element leaves by shifting those behind it down.
-/

namespace ShiftInsertion

universe u
variable {α : Type u}

/-- The loop: the cells below the supplied place are still to be looked at, and the cell at the
place is free. A read beyond the array ends it. -/
def insert (stays : α → Bool) (new : α) : Nat → List α → List α
  | 0, cells => cells.set 0 new
  | place + 1, cells =>
    match cells[place]? with
    | none => cells
    | some other =>
      if stays other then cells.set (place + 1) new
      else insert stays new place (cells.set (place + 1) other)

/-- The loop that shifts elements down over the cell at a place, for a number of turns. -/
def close : Nat → Nat → List α → List α
  | 0, _, cells => cells
  | turns + 1, place, cells =>
    match cells[place + 1]? with
    | none => cells
    | some next => close turns (place + 1) (cells.set place next)

variable {stays : α → Bool} {new : α}

theorem length_close (turns place : Nat) (cells : List α) :
    (close turns place cells).length = cells.length := by
  induction turns generalizing place cells with
  | zero => rfl
  | succ turns inductionHypothesis =>
    rw [close]
    split
    · rfl
    · rw [inductionHypothesis, List.length_set]

/-- The element at the place is gone, and a cell behind those that were shifted is free. -/
theorem close_frees (before : List α) (gone : α) (after rest : List α) :
    ∃ free, close after.length before.length (before ++ gone :: (after ++ rest)) =
      before ++ after ++ free :: rest := by
  induction after generalizing before gone with
  | nil => exact ⟨gone, by simp [close]⟩
  | cons next after inductionHypothesis =>
    have read : (before ++ gone :: (next :: after ++ rest))[before.length + 1]? = some next := by
      simp
    have written : (before ++ gone :: (next :: after ++ rest)).set before.length next =
        (before ++ [next]) ++ next :: (after ++ rest) := by simp
    obtain ⟨free, closed⟩ := inductionHypothesis (before ++ [next]) next
    rw [List.length_append, List.length_singleton] at closed
    refine ⟨free, ?_⟩
    rw [List.length_cons, close, read]
    dsimp only
    rw [written, closed, List.append_assoc before, List.singleton_append]

theorem length_insert (place : Nat) (cells : List α) :
    (insert stays new place cells).length = cells.length := by
  induction place generalizing cells with
  | zero => exact List.length_set
  | succ place inductionHypothesis =>
    rw [insert]
    split
    · rfl
    · split
      · exact List.length_set
      · rw [inductionHypothesis, List.length_set]

/-- The new element comes behind an element that stays, or first of all, and before those that do
not. -/
structure Splits (stays : α → Bool) (used before after : List α) : Prop where
  whole : used = before ++ after
  kept : ∀ other ∈ before.getLast?, stays other
  shifted : ∀ other ∈ after, stays other = false

/-- The used part is split, and the free cell takes the last of what is shifted. -/
theorem insert_splits (stays : α → Bool) (new : α) (used : List α) (free : α) (rest : List α) :
    ∃ before after, Splits stays used before after ∧
      insert stays new used.length (used ++ free :: rest) = before ++ new :: after ++ rest := by
  induction used using List.reverseRecOn generalizing free rest with
  | nil => exact ⟨[], [], ⟨rfl, by simp, by simp⟩, rfl⟩
  | append_singleton used last inductionHypothesis =>
    have read : ((used ++ [last]) ++ free :: rest)[used.length]? = some last := by simp
    have written (value : α) : ((used ++ [last]) ++ free :: rest).set (used.length + 1) value =
        used ++ last :: value :: rest := by simp
    rw [List.length_append, List.length_singleton, insert, read]
    dsimp only
    rw [written, written]
    by_cases here : stays last
    · rw [if_pos here]
      refine ⟨used ++ [last], [], ⟨by simp, ?_, by simp⟩, by simp⟩
      simpa using here
    · rw [if_neg here]
      obtain ⟨before, after, splits, inserted⟩ := inductionHypothesis last (last :: rest)
      refine ⟨before, after ++ [last], ⟨?_, splits.kept, ?_⟩, by simp [inserted]⟩
      · rw [splits.whole, List.append_assoc]
      · intro other member
        rcases List.mem_append.mp member with later | same
        · exact splits.shifted other later
        · rw [List.mem_singleton.mp same]
          exact Bool.eq_false_iff.mpr here

variable {used before after : List α}

theorem Splits.perm (splits : Splits stays used before after) :
    (before ++ new :: after).Perm (new :: used) := by
  rw [splits.whole]
  exact List.perm_middle

/-- Where what stays is in order with the new element, and the new element with what is shifted,
the order of the used part is extended. -/
theorem Splits.ordered (splits : Splits stays used before after) {r : α → α → Prop}
    (trans : ∀ {a b c}, r a b → r b c → r a c) (below : ∀ other ∈ used, stays other → r other new)
    (above : ∀ other ∈ used, stays other = false → r new other) (ordered : used.Pairwise r) :
    (before ++ new :: after).Pairwise r := by
  obtain ⟨rfl, kept, shifted⟩ := splits
  obtain ⟨lower, upper, across⟩ := List.pairwise_append.mp ordered
  have under : ∀ other ∈ before, r other new := by
    intro other member
    obtain ⟨init, last, rfl⟩ :=
      (List.eq_nil_or_concat' before).resolve_left (List.ne_nil_of_mem member)
    have final : r last new := below last (by simp) (kept last (by simp))
    rcases List.mem_append.mp member with earlier | same
    · exact trans ((List.pairwise_append.mp lower).2.2 other earlier last (by simp)) final
    · exact List.mem_singleton.mp same ▸ final
  have least : ∀ other ∈ after, r new other := fun other member =>
    above other (List.mem_append_right _ member) (shifted other member)
  refine List.pairwise_append.mpr ⟨lower, List.pairwise_cons.mpr ⟨least, upper⟩, ?_⟩
  intro left member right also
  rcases List.mem_cons.mp also with rfl | later
  · exact under left member
  · exact across left member right later

end ShiftInsertion
