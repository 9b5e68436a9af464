import Mathlib.Data.List.Nodup
import Mathlib.Data.List.Perm.Basic

/-!
# Groups of members that share a resource

Members of a list may each need a resource, named by a key. Those with the same key form a group,
at the place of the first of them; a member without a key is a group of its own.
-/

namespace SharedGroups

universe u v
variable {α : Type u} {κ : Type v} [DecidableEq κ]

/-- Members, and the key that they share. -/
structure Group (α : Type u) (κ : Type v) where
  key : Option κ
  members : List α

/-- The members that share a key. -/
def sharing (key : α → Option κ) (shared : κ) (members : List α) : List α :=
  members.filter (key · = some shared)

/-- The members that do not. -/
def others (key : α → Option κ) (shared : κ) (members : List α) : List α :=
  members.filter (key · ≠ some shared)

theorem length_others_le (key : α → Option κ) (shared : κ) (members : List α) :
    (others key shared members).length ≤ members.length :=
  List.length_filter_le _ members

/-- The groups of a list. -/
def groups (key : α → Option κ) : List α → List (Group α κ)
  | [] => []
  | first :: rest =>
    match key first with
    | none => ⟨none, [first]⟩ :: groups key rest
    | some shared =>
      ⟨some shared, first :: sharing key shared rest⟩ :: groups key (others key shared rest)
termination_by members => members.length
decreasing_by
  · exact Nat.lt_succ_self _
  · exact Nat.lt_succ_of_le (length_others_le ..)

variable {key : α → Option κ} {members : List α} {shared : κ} {first member : α}

@[simp] theorem groups_nil : groups key [] = [] := by
  rw [groups]

theorem groups_cons_none (free : key first = none) :
    groups key (first :: members) = ⟨none, [first]⟩ :: groups key members := by
  rw [groups, free]

theorem groups_cons_some (needs : key first = some shared) :
    groups key (first :: members) =
      ⟨some shared, first :: sharing key shared members⟩ ::
        groups key (others key shared members) := by
  rw [groups, needs]

theorem mem_sharing : member ∈ sharing key shared members ↔
    member ∈ members ∧ key member = some shared := by
  simp [sharing]

theorem mem_others : member ∈ others key shared members ↔
    member ∈ members ∧ key member ≠ some shared := by
  simp [others]

theorem sharing_append_others_perm (key : α → Option κ) (shared : κ) (members : List α) :
    (sharing key shared members ++ others key shared members).Perm members := by
  have parts := List.filter_append_perm (fun member => key member = some shared) members
  simpa only [sharing, others, decide_not] using parts

/-- Only the keys of the members matter. -/
theorem groups_congr {key' : α → Option κ} (same : ∀ member ∈ members, key member = key' member) :
    groups key members = groups key' members := by
  induction members using groups.induct key with
  | case1 => rw [groups_nil, groups_nil]
  | case2 first rest free inductionHypothesis =>
    have free' : key' first = none := (same first List.mem_cons_self).symm.trans free
    rw [groups_cons_none free, groups_cons_none free',
      inductionHypothesis fun member later => same member (List.mem_cons_of_mem _ later)]
  | case3 first rest shared needs inductionHypothesis =>
    have needs' : key' first = some shared := (same first List.mem_cons_self).symm.trans needs
    have behind : ∀ member ∈ rest, key member = key' member :=
      fun member later => same member (List.mem_cons_of_mem _ later)
    have sharings : sharing key shared rest = sharing key' shared rest :=
      List.filter_congr fun member later => by rw [behind member later]
    have remaining : others key shared rest = others key' shared rest :=
      List.filter_congr fun member later => by rw [behind member later]
    rw [groups_cons_some needs, groups_cons_some needs', sharings, ← remaining,
      inductionHypothesis fun member later => behind member (mem_others.mp later).1]

/-- Every member is in one group, once. -/
theorem groups_perm (key : α → Option κ) (members : List α) :
    ((groups key members).flatMap Group.members).Perm members := by
  induction members using groups.induct key with
  | case1 => exact .of_eq (by rw [groups_nil, List.flatMap_nil])
  | case2 first rest free inductionHypothesis =>
    rw [groups_cons_none free]
    exact inductionHypothesis.cons first
  | case3 first rest shared needs inductionHypothesis =>
    rw [groups_cons_some needs]
    have behind := inductionHypothesis.append_left (sharing key shared rest)
    exact (behind.trans (sharing_append_others_perm key shared rest)).cons first

/-- The members of a group have its key, and there is one. -/
theorem groups_uniform (key : α → Option κ) (members : List α) :
    ∀ group ∈ groups key members,
      group.members ≠ [] ∧ ∀ member ∈ group.members, key member = group.key := by
  induction members using groups.induct key with
  | case1 =>
    rw [groups_nil]
    exact fun _ absent => nomatch absent
  | case2 first rest free inductionHypothesis =>
    rw [groups_cons_none free]
    refine List.forall_mem_cons.mpr ⟨⟨List.cons_ne_nil _ _, ?_⟩, inductionHypothesis⟩
    intro member only
    rw [List.mem_singleton.mp only]
    exact free
  | case3 first rest shared needs inductionHypothesis =>
    rw [groups_cons_some needs]
    refine List.forall_mem_cons.mpr ⟨⟨List.cons_ne_nil _ _, ?_⟩, inductionHypothesis⟩
    refine List.forall_mem_cons.mpr ⟨needs, ?_⟩
    intro member among
    exact (mem_sharing.mp among).2

/-- A key of a group is one of a member. -/
theorem key_of_group {group : Group α κ} (found : group ∈ groups key members) :
    ∃ member ∈ members, member ∈ group.members ∧ key member = group.key := by
  obtain ⟨populated, same⟩ := groups_uniform key members group found
  obtain ⟨member, inside⟩ := List.exists_mem_of_ne_nil _ populated
  have among : member ∈ members :=
    (groups_perm key members).mem_iff.mp (List.mem_flatMap.mpr ⟨group, found, inside⟩)
  exact ⟨member, among, inside, same member inside⟩

/-- Every member is in a group with its key. -/
theorem group_of_member (key : α → Option κ) (present : member ∈ members) :
    ∃ group ∈ groups key members, member ∈ group.members ∧ group.key = key member := by
  obtain ⟨group, found, inside⟩ :=
    List.mem_flatMap.mp ((groups_perm key members).mem_iff.mpr present)
  exact ⟨group, found, inside, ((groups_uniform key members group found).2 member inside).symm⟩

/-- No two groups have the same key. -/
theorem groups_apart (key : α → Option κ) (members : List α) :
    (groups key members).Pairwise fun g h => g.key = none ∨ g.key ≠ h.key := by
  induction members using groups.induct key with
  | case1 =>
    rw [groups_nil]
    exact .nil
  | case2 first rest free inductionHypothesis =>
    rw [groups_cons_none free]
    exact .cons (fun _ _ => .inl rfl) inductionHypothesis
  | case3 first rest shared needs inductionHypothesis =>
    rw [groups_cons_some needs]
    refine .cons ?_ inductionHypothesis
    intro group later
    obtain ⟨member, among, -, same⟩ := key_of_group later
    refine .inr ?_
    rw [← same]
    exact (mem_others.mp among).2.symm

/-! ## Divided lists -/

section Parts

variable {β : Type v} [BEq α] [LawfulBEq α] {parts : List β} {elements : β → List α} {a : α}

theorem countP_le_count (parts : List β) (elements : β → List α) (a : α) :
    parts.countP (a ∈ elements ·) ≤ (parts.flatMap elements).count a := by
  induction parts with
  | nil => exact Nat.le_refl _
  | cons part parts inductionHypothesis =>
    rw [List.countP_cons, List.flatMap_cons, List.count_append, Nat.add_comm]
    refine Nat.add_le_add ?_ inductionHypothesis
    split
    next inside => exact List.count_pos_iff.mpr (of_decide_eq_true inside)
    next => exact Nat.zero_le _

/-- In a list of distinct elements that is divided, each is in exactly one part. -/
theorem countP_parts {whole : List α} (divided : (parts.flatMap elements).Perm whole)
    (distinct : whole.Nodup) (present : a ∈ whole) : parts.countP (a ∈ elements ·) = 1 := by
  have once : (parts.flatMap elements).count a = 1 :=
    List.count_eq_one_of_mem (divided.nodup_iff.mpr distinct) (divided.mem_iff.mpr present)
  have most := countP_le_count parts elements a
  obtain ⟨part, found, inside⟩ := List.mem_flatMap.mp (divided.mem_iff.mpr present)
  have least : 0 < parts.countP (a ∈ elements ·) :=
    List.countP_pos_iff.mpr ⟨part, found, decide_eq_true inside⟩
  omega

end Parts

end SharedGroups
