import LinuxPtp.KeyedLists
import Mathlib.Logic.Function.Basic

/-!
# Chained hash tables

A table of chains, each with the nodes of the keys that one hash value has. Whatever the hash
function is, the table is a finite map, and what is changed through a pointer into it changes what
is found under one key.

The table is a function from numbers below its size to lists of nodes. Nothing is asked of the
hash function but that it gives one number for one key, so the bound on its values is all that a
caller has to show.
-/

namespace ChainedTables

open KeyedLists

universe u v
variable {κ : Type u} {α : Type v} {size : Nat}

/-- A key and what is stored under it. -/
structure Node (κ : Type u) (α : Type v) where
  key : κ
  data : α

/-- A chain for every hash value. -/
abbrev Table (size : Nat) (κ : Type u) (α : Type v) := Fin size → List (Node κ α)

def empty : Table size κ α := fun _ => []

variable [DecidableEq κ]

section Operations

variable (hash : κ → Fin size)

/-- Look for a key in its chain. -/
def find (table : Table size κ α) (key : κ) : Option α :=
  (lookup Node.key key (table (hash key))).map Node.data

/-- Put a node in front of its chain, unless the key is there. -/
def insert (table : Table size κ α) (key : κ) (data : α) : Option (Table size κ α) :=
  if (lookup Node.key key (table (hash key))).isSome then none
  else some (Function.update table (hash key) (⟨key, data⟩ :: table (hash key)))

/-- A node of which the data is changed if it has a key. -/
def Node.change (key : κ) (update : α → α) (node : Node κ α) : Node κ α :=
  if node.key = key then ⟨node.key, update node.data⟩ else node

/-- Change what is stored under a key in place. -/
def modify (table : Table size κ α) (key : κ) (update : α → α) : Table size κ α :=
  Function.update table (hash key) ((table (hash key)).map (Node.change key update))

end Operations

variable {hash : κ → Fin size} {table after : Table size κ α} {key other : κ} {data : α}

theorem find_empty : find hash (empty : Table size κ α) key = none := rfl

/-- A key is inserted exactly if it is not there. -/
theorem insert_none : insert hash table key data = none ↔ (find hash table key).isSome := by
  rw [insert, find, Option.isSome_map]
  split <;> simp_all

/-- After an insertion the key is found, and all others as before. -/
theorem find_insert (inserted : insert hash table key data = some after) :
    find hash after other = if other = key then some data else find hash table other := by
  rw [insert] at inserted
  split at inserted
  · cases inserted
  obtain rfl := Option.some.inj inserted
  rw [find]
  by_cases chain : hash other = hash key
  · rw [chain, Function.update_self, lookup_cons]
    by_cases same : other = key
    · rw [if_pos same, if_pos same.symm]
      rfl
    · rw [if_neg same, if_neg (Ne.symm same), find, chain]
  · have differ : other ≠ key := fun same => chain (congrArg hash same)
    rw [Function.update_of_ne chain, if_neg differ, find]

theorem change_key (update : α → α) (node : Node κ α) : (node.change key update).key = node.key := by
  rw [Node.change]
  split <;> rfl

/-- A change in place is seen under its key only. -/
theorem find_modify (update : α → α) :
    find hash (modify hash table key update) other =
      if other = key then (find hash table key).map update else find hash table other := by
  rw [find, modify]
  by_cases chain : hash other = hash key
  · rw [chain, Function.update_self, lookup_map (change_key update), find, Option.map_map]
    by_cases same : other = key
    · subst same
      rw [if_pos rfl, Option.map_map]
      refine Option.map_congr fun node found => ?_
      have mine : node.key = other := (lookup_some found).2
      simp [Node.change, mine]
    · rw [if_neg same, find, chain]
      refine Option.map_congr fun node found => ?_
      have mine : node.key = other := (lookup_some found).2
      have differ : node.key ≠ key := fun also => same (mine.symm.trans also)
      simp [Node.change, differ]
  · have differ : other ≠ key := fun same => chain (congrArg hash same)
    rw [Function.update_of_ne chain, if_neg differ, find]

end ChainedTables
