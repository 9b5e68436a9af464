import Mathlib.Data.List.Basic
import Mathlib.Data.List.Nodup

/-!
# Lists with a key

A list whose members have a key, no two the same, is a finite map. The operations a list offers at
the place of a key are the operations of the map.

Lookup, change, removal and insertion at the front are each shown to be the operation of the map,
with what they leave elsewhere. That no key comes twice is kept by all of them, so that it is
shown once at the start.
-/

namespace KeyedLists

universe u v
variable {α : Type u} {κ : Type v} {key : α → κ} {as : List α} {k other : κ}

/-- No two members have one key. -/
def Unique (key : α → κ) (as : List α) : Prop := (as.map key).Nodup

theorem unique_erase (unique : Unique key as) (index : Nat) : Unique key (as.eraseIdx index) :=
  unique.sublist ((List.eraseIdx_sublist as index).map key)

theorem unique_filter (unique : Unique key as) (p : α → Bool) : Unique key (as.filter p) :=
  unique.sublist (List.filter_sublist.map key)

theorem map_modify {f : α → α} (keeps : ∀ a, key (f a) = key a) (index : Nat) :
    (as.modify index f).map key = as.map key := by
  induction as generalizing index with
  | nil => simp
  | cons a as inductionHypothesis =>
    cases index with
    | zero => simp [keeps]
    | succ index => simp [inductionHypothesis]

/-- An element that is changed in place and keeps its key leaves the keys unique. -/
theorem unique_modify (unique : Unique key as) {f : α → α} (keeps : ∀ a, key (f a) = key a)
    (index : Nat) : Unique key (as.modify index f) := by
  rw [Unique, map_modify keeps]
  exact unique

theorem unique_map (unique : Unique key as) {f : α → α} (keeps : ∀ a, key (f a) = key a) :
    Unique key (as.map f) := by
  rw [Unique, List.map_map]
  exact (List.map_congr_left fun a _ => keeps a) ▸ unique

section Lookup

variable [DecidableEq κ]

/-- The member with a key. -/
def lookup (key : α → κ) (k : κ) (as : List α) : Option α := as.find? fun a => key a = k

/-- The place of a key. -/
def place (key : α → κ) (k : κ) (as : List α) : Option Nat := as.findIdx? fun a => key a = k

/-- The first element is found first. -/
theorem lookup_cons (a : α) :
    lookup key k (a :: as) = if key a = k then some a else lookup key k as := by
  by_cases here : key a = k
  · rw [if_pos here, lookup, List.find?_cons_of_pos (by simpa using here)]
  · rw [if_neg here, lookup, List.find?_cons_of_neg (by simpa using here), lookup]

/-- Where it is found goes with what is found. -/
theorem place_cons (a : α) :
    place key k (a :: as) = if key a = k then some 0 else (place key k as).map (· + 1) := by
  by_cases here : key a = k <;> simp [place, List.findIdx?_cons, here]

/-- Nothing is found exactly if the key is in no element. -/
theorem lookup_none : lookup key k as = none ↔ k ∉ as.map key := by
  induction as with
  | nil => simp [lookup]
  | cons a as inductionHypothesis =>
    rw [lookup_cons, List.map_cons, List.mem_cons, not_or, ← inductionHypothesis]
    by_cases here : key a = k
    · simp [here]
    · simp [here, Ne.symm here]

theorem lookup_some {a : α} (found : lookup key k as = some a) : a ∈ as ∧ key a = k :=
  ⟨List.mem_of_find?_eq_some found, by simpa using List.find?_some found⟩

/-- A member is found under its own key. -/
theorem lookup_member (unique : Unique key as) {a : α} (member : a ∈ as) :
    lookup key (key a) as = some a := by
  induction as with
  | nil => cases member
  | cons head as inductionHypothesis =>
    obtain ⟨fresh, rest⟩ := List.nodup_cons.mp unique
    rw [lookup_cons]
    rcases List.mem_cons.mp member with rfl | later
    · exact if_pos rfl
    · have different : key head ≠ key a := fun same =>
        fresh (List.mem_map.mpr ⟨a, later, same.symm⟩)
      rw [if_neg different]
      exact inductionHypothesis rest later

/-- At most one member has a key. -/
theorem filter_key (unique : Unique key as) :
    as.filter (fun a => key a = k) = (lookup key k as).toList := by
  induction as with
  | nil => rfl
  | cons a as inductionHypothesis =>
    obtain ⟨fresh, rest⟩ := List.nodup_cons.mp unique
    rw [lookup_cons]
    by_cases here : key a = k
    · rw [List.filter_cons_of_pos (by simpa using here), inductionHypothesis rest, if_pos here,
        lookup_none.mpr (here ▸ fresh)]
      rfl
    · rw [List.filter_cons_of_neg (by simpa using here), if_neg here]
      exact inductionHypothesis rest

theorem place_none : place key k as = none ↔ lookup key k as = none := by
  induction as with
  | nil => simp [place, lookup]
  | cons a as inductionHypothesis =>
    rw [place_cons, lookup_cons]
    by_cases here : key a = k
    · simp [here]
    · simpa [here] using inductionHypothesis

/-! ## The operations -/

/-- A fresh key in front keeps the keys unique. -/
theorem unique_cons (unique : Unique key as) {a : α} (fresh : lookup key (key a) as = none) :
    Unique key (a :: as) :=
  List.nodup_cons.mpr ⟨lookup_none.mp fresh, unique⟩

/-- Erasing at the place of a key forgets that key and no other. -/
theorem lookup_erase (unique : Unique key as) {index : Nat} (found : place key k as = some index) :
    lookup key other (as.eraseIdx index) = if other = k then none else lookup key other as := by
  induction as generalizing index with
  | nil => cases found
  | cons a as inductionHypothesis =>
    obtain ⟨fresh, rest⟩ := List.nodup_cons.mp unique
    rw [place_cons] at found
    by_cases here : key a = k
    · rw [if_pos here] at found
      obtain rfl := Option.some.inj found
      rw [List.eraseIdx_cons_zero, lookup_cons]
      by_cases same : other = k
      · rw [if_pos same]
        exact lookup_none.mpr (same ▸ here ▸ fresh)
      · rw [if_neg same, if_neg fun also => same (also.symm.trans here)]
    · rw [if_neg here] at found
      obtain ⟨before, earlier, rfl⟩ := Option.map_eq_some_iff.mp found
      rw [List.eraseIdx_cons_succ, lookup_cons, lookup_cons, inductionHypothesis rest earlier]
      by_cases same : other = k
      · rw [if_pos same, if_neg fun also => here (also.trans same), if_pos same]
      · rw [if_neg same, if_neg same]

/-- Changing the member at the place of a key changes what is found under that key only. -/
theorem lookup_modify {f : α → α} (keeps : ∀ a, key (f a) = key a) {index : Nat}
    (found : place key k as = some index) :
    lookup key other (as.modify index f) =
      if other = k then (lookup key k as).map f else lookup key other as := by
  induction as generalizing index with
  | nil => cases found
  | cons a as inductionHypothesis =>
    rw [place_cons] at found
    by_cases here : key a = k
    · rw [if_pos here] at found
      obtain rfl := Option.some.inj found
      rw [List.modify_zero_cons, lookup_cons, lookup_cons, lookup_cons, keeps, if_pos here]
      by_cases same : other = k
      · rw [if_pos (here.trans same.symm), if_pos same]
        rfl
      · have different : key a ≠ other := fun also => same (also.symm.trans here)
        rw [if_neg different, if_neg same, if_neg different]
    · rw [if_neg here] at found
      obtain ⟨before, earlier, rfl⟩ := Option.map_eq_some_iff.mp found
      rw [List.modify_succ_cons, lookup_cons, lookup_cons, lookup_cons, if_neg here,
        inductionHypothesis earlier]
      by_cases same : other = k
      · rw [if_pos same, if_neg fun also => here (also.trans same), if_pos same]
      · rw [if_neg same, if_neg same]

/-- A filter keeps what is found if it is wanted. -/
theorem lookup_filter (unique : Unique key as) (p : α → Bool) :
    lookup key k (as.filter p) = (lookup key k as).filter p := by
  induction as with
  | nil => rfl
  | cons a as inductionHypothesis =>
    obtain ⟨fresh, rest⟩ := List.nodup_cons.mp unique
    rw [lookup_cons]
    by_cases wanted : p a
    · rw [List.filter_cons_of_pos wanted, lookup_cons]
      by_cases here : key a = k
      · rw [if_pos here, if_pos here, Option.filter_some_pos wanted]
      · rw [if_neg here, if_neg here]
        exact inductionHypothesis rest
    · rw [List.filter_cons_of_neg wanted, inductionHypothesis rest]
      by_cases here : key a = k
      · rw [if_pos here, lookup_none.mpr (here ▸ fresh), Option.filter_some_neg (by simpa using wanted)]
        rfl
      · rw [if_neg here]

/-- A change that keeps the keys commutes with looking up. -/
theorem lookup_map {f : α → α} (keeps : ∀ a, key (f a) = key a) :
    lookup key k (as.map f) = (lookup key k as).map f := by
  induction as with
  | nil => rfl
  | cons a as inductionHypothesis =>
    rw [List.map_cons, lookup_cons, lookup_cons, keeps, inductionHypothesis]
    by_cases here : key a = k
    · rw [if_pos here, if_pos here]
      rfl
    · rw [if_neg here, if_neg here]

end Lookup

end KeyedLists
