import Mathlib.Data.List.Basic
import Mathlib.Data.List.Nodup
import Mathlib.Data.List.Perm.Basic
import Mathlib.Data.List.Range
import Mathlib.Logic.Function.Basic

/-!
# Pools of counted cells

Cells are numbered, and each counts the references to it. A cell whose count
returns to zero goes to the front of a free list, from which the next cell is
taken. The counts are exact for a list of holders if each cell is counted as
often as it is held, and the free cells are those that nobody holds.
-/

namespace RefPool

universe u
variable {α : Type u}

/-- The cells, their counts, and the free ones in the order of reuse. -/
structure Pool (α : Type u) where
  content : Nat → α
  count : Nat → Int
  free : List Nat := []
  /-- Cells from this one on were never used. -/
  next : Nat := 0
  /-- A reference was given back that did not exist. -/
  overdrawn : Bool := false

namespace Pool

/-- Take a cell, free or new, and hold it once. -/
def allocate (blank : α) (pool : Pool α) : Nat × Pool α :=
  match pool.free with
  | cell :: rest => (cell, { pool with
      content := Function.update pool.content cell blank
      count := Function.update pool.count cell 1
      free := rest })
  | [] => (pool.next, { pool with
      content := Function.update pool.content pool.next blank
      count := Function.update pool.count pool.next 1
      next := pool.next + 1 })

/-- One more reference to a cell. -/
def get (cell : Nat) (pool : Pool α) : Pool α :=
  { pool with count := Function.update pool.count cell (pool.count cell + 1) }

/-- One reference less, the last one freeing the cell. -/
def put (cell : Nat) (pool : Pool α) : Pool α :=
  { pool with
    count := Function.update pool.count cell (pool.count cell - 1)
    free := if pool.count cell - 1 = 0 then cell :: pool.free else pool.free
    overdrawn := pool.overdrawn || decide (pool.count cell ≤ 0) }

/-- Change what a cell contains. -/
def modify (cell : Nat) (change : α → α) (pool : Pool α) : Pool α :=
  { pool with content := Function.update pool.content cell (change (pool.content cell)) }

end Pool

/-- Each cell is counted once for each time it is held, a cell is free exactly if
it was used and is not held, and no reference was given back twice. -/
structure Exact (pool : Pool α) (holders : List Nat) : Prop where
  counted : ∀ cell, pool.count cell = holders.count cell
  idle : ∀ cell ∈ pool.free, cell ∉ holders
  once : pool.free.Nodup
  used : ∀ cell, cell ∈ pool.free ∨ cell ∈ holders ↔ cell < pool.next
  sound : pool.overdrawn = false

section Rules

variable {pool : Pool α} {holders others : List Nat}

theorem exact_empty (content : Nat → α) : Exact { content := content, count := fun _ => 0 } [] := by
  constructor <;> simp

/-- Who holds a cell is of no account. -/
theorem Exact.perm (exact : Exact pool holders) (same : holders.Perm others) :
    Exact pool others := by
  refine ⟨fun cell => ?_, fun cell free held => ?_, exact.once, fun cell => ?_, exact.sound⟩
  · rw [← same.count_eq]
    exact exact.counted cell
  · exact exact.idle cell free (same.mem_iff.mpr held)
  · rw [← same.mem_iff]
    exact exact.used cell

/-- A cell that is held has a positive count. -/
theorem Exact.positive (exact : Exact pool holders) {cell : Nat} (held : cell ∈ holders) :
    0 < pool.count cell := by
  rw [exact.counted]
  exact_mod_cast List.count_pos_iff.mpr held

/-- A new cell is held by nobody else. -/
theorem Exact.fresh (exact : Exact pool holders) (blank : α) :
    (pool.allocate blank).1 ∉ holders := by
  intro held
  unfold Pool.allocate at held
  cases free : pool.free with
  | nil =>
    rw [free] at held
    have used := (exact.used pool.next).mp (Or.inr held)
    exact Nat.lt_irrefl _ used
  | cons cell rest =>
    rw [free] at held
    exact exact.idle cell (free ▸ List.mem_cons_self) held

/-- A new cell has one holder. -/
theorem Exact.allocate (exact : Exact pool holders) (blank : α) :
    Exact (pool.allocate blank).2 ((pool.allocate blank).1 :: holders) := by
  have fresh := exact.fresh blank
  have recount : ∀ cell, cell ∉ holders → ∀ other,
      Function.update pool.count cell 1 other = ((cell :: holders).count other : Nat) := by
    intro cell unheld other
    by_cases same : other = cell
    · subst same
      simp [List.count_eq_zero_of_not_mem unheld]
    · rw [Function.update_of_ne same, exact.counted, List.count_cons_of_ne (Ne.symm same)]
  unfold Pool.allocate at fresh ⊢
  cases free : pool.free with
  | nil =>
    rw [free] at fresh
    refine ⟨recount _ fresh, ?_, ?_, fun cell => ?_, exact.sound⟩
    · simp
    · simp
    · have used := exact.used cell
      simp only [free, List.not_mem_nil, false_or, List.mem_cons] at used ⊢
      rw [used]
      omega
  | cons cell rest =>
    rw [free] at fresh
    have once := exact.once
    rw [free] at once
    refine ⟨recount cell fresh, fun other idle held => ?_, (List.nodup_cons.mp once).2,
      fun other => ?_, exact.sound⟩
    · rcases List.mem_cons.mp held with rfl | held
      · exact (List.nodup_cons.mp once).1 idle
      · exact exact.idle other (free ▸ List.mem_cons_of_mem _ idle) held
    · have used := exact.used other
      simp only [free, List.mem_cons] at used ⊢
      rw [← used]
      tauto

/-- Getting a cell adds a holder to those it has. -/
theorem Exact.get (exact : Exact pool holders) {cell : Nat} (held : cell ∈ holders) :
    Exact (pool.get cell) (cell :: holders) := by
  refine ⟨fun other => ?_, fun other free again => ?_, exact.once, fun other => ?_, exact.sound⟩
  · by_cases same : other = cell
    · subst same
      simp [Pool.get, exact.counted]
    · refine (Function.update_of_ne same ..).trans ?_
      rw [exact.counted, List.count_cons_of_ne (Ne.symm same)]
  · rcases List.mem_cons.mp again with rfl | again
    · exact exact.idle other free held
    · exact exact.idle other free again
  · rw [List.mem_cons]
    refine Iff.trans ?_ (exact.used other)
    constructor
    · rintro (free | rfl | again)
      · exact Or.inl free
      · exact Or.inr held
      · exact Or.inr again
    · rintro (free | again)
      · exact Or.inl free
      · exact Or.inr (Or.inr again)

/-- Putting a cell takes one holder away; with the last one the cell is free. -/
theorem Exact.put {cell : Nat} (exact : Exact pool (cell :: holders)) :
    Exact (pool.put cell) holders := by
  have here : pool.count cell = holders.count cell + 1 := by
    rw [exact.counted, List.count_cons_self]
    push_cast
    rfl
  have inside : cell < pool.next := (exact.used cell).mp (Or.inr List.mem_cons_self)
  have freed : pool.count cell - 1 = 0 ↔ cell ∉ holders := by
    rw [here, ← List.count_eq_zero]
    omega
  have apart : cell ∉ pool.free := fun free => exact.idle cell free List.mem_cons_self
  refine ⟨fun other => ?_, fun other free held => ?_, ?_, fun other => ?_, ?_⟩
  · by_cases same : other = cell
    · subst same
      simp only [Pool.put, Function.update_self, here]
      omega
    · refine (Function.update_of_ne same ..).trans ?_
      rw [exact.counted, List.count_cons_of_ne (Ne.symm same)]
  · by_cases last : pool.count cell - 1 = 0
    · simp only [Pool.put, last, if_true, List.mem_cons] at free
      rcases free with rfl | free
      · exact freed.mp last held
      · exact exact.idle other free (List.mem_cons_of_mem _ held)
    · simp only [Pool.put, last, if_false] at free
      exact exact.idle other free (List.mem_cons_of_mem _ held)
  · by_cases last : pool.count cell - 1 = 0
    · simp only [Pool.put, last, if_true, List.nodup_cons]
      exact ⟨apart, exact.once⟩
    · simp only [Pool.put, last, if_false]
      exact exact.once
  · have used := exact.used other
    rw [List.mem_cons] at used
    by_cases last : pool.count cell - 1 = 0
    · simp only [Pool.put, last, if_true, List.mem_cons]
      rw [← used]
      tauto
    · have kept : cell ∈ holders := not_not.mp fun unheld => last (freed.mpr unheld)
      simp only [Pool.put, last, if_false]
      rw [← used]
      constructor
      · rintro (free | held)
        · exact Or.inl free
        · exact Or.inr (Or.inr held)
      · rintro (free | rfl | held)
        · exact Or.inl free
        · exact Or.inr kept
        · exact Or.inr held
  · have positive : ¬ pool.count cell ≤ 0 := by
      rw [here]
      omega
    simp only [Pool.put, exact.sound, positive, decide_false, Bool.or_self]

/-- Counts are no matter of contents. -/
theorem Exact.modify (exact : Exact pool holders) (cell : Nat) (change : α → α) :
    Exact (pool.modify cell change) holders :=
  ⟨exact.counted, exact.idle, exact.once, exact.used, exact.sound⟩

/-! ## Contents -/

@[simp] theorem content_get (cell : Nat) : (pool.get cell).content = pool.content := rfl

@[simp] theorem content_put (cell : Nat) : (pool.put cell).content = pool.content := rfl

@[simp] theorem content_modify_same (cell : Nat) (change : α → α) :
    (pool.modify cell change).content cell = change (pool.content cell) :=
  Function.update_self ..

theorem content_modify_other {cell other : Nat} (differ : other ≠ cell) (change : α → α) :
    (pool.modify cell change).content other = pool.content other :=
  Function.update_of_ne differ ..

@[simp] theorem content_allocate (blank : α) :
    (pool.allocate blank).2.content (pool.allocate blank).1 = blank := by
  unfold Pool.allocate
  cases pool.free <;> exact Function.update_self ..

theorem content_allocate_other (blank : α) {other : Nat}
    (differ : other ≠ (pool.allocate blank).1) :
    (pool.allocate blank).2.content other = pool.content other := by
  unfold Pool.allocate at differ ⊢
  cases free : pool.free with
  | nil =>
    rw [free] at differ
    exact Function.update_of_ne differ ..
  | cons cell rest =>
    rw [free] at differ
    exact Function.update_of_ne differ ..

/-- Taking a cell leaves what the held ones contain. -/
theorem Exact.content_held (exact : Exact pool holders) (blank : α) {cell : Nat}
    (held : cell ∈ holders) : (pool.allocate blank).2.content cell = pool.content cell :=
  content_allocate_other blank fun same => exact.fresh blank (same ▸ held)

end Rules

/-! ## Holders in several places -/

/-- What several places hold, one of which is singled out. -/
theorem flatMap_single {ι β : Type u} {places : List ι} (distinct : places.Nodup)
    {place : ι} (member : place ∈ places) (holders : ι → List β) :
    ∃ rest : List β, ∀ other : ι → List β, (∀ index, index ≠ place → other index = holders index) →
      (places.flatMap other).Perm (other place ++ rest) := by
  induction places with
  | nil => cases member
  | cons first more inductionHypothesis =>
    obtain ⟨absent, later⟩ := List.nodup_cons.mp distinct
    rcases List.mem_cons.mp member with rfl | member
    · refine ⟨more.flatMap holders, fun other same => ?_⟩
      have agree : more.flatMap other = more.flatMap holders :=
        List.flatMap_congr fun index present => same index (by
          rintro rfl
          exact absent present)
      rw [List.flatMap_cons, agree]
    · obtain ⟨rest, split⟩ := inductionHypothesis later member
      refine ⟨holders first ++ rest, fun other same => ?_⟩
      have differ : first ≠ place := by
        rintro rfl
        exact absent member
      rw [List.flatMap_cons, same first differ]
      refine ((split other same).append_left (holders first)).trans ?_
      rw [← List.append_assoc, ← List.append_assoc]
      exact List.perm_append_comm.append_right rest

end RefPool
