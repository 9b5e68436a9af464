import Mathlib.Data.List.Basic
import Mathlib.Data.List.Perm.Basic
import Mathlib.Order.Lattice

/-!
# Choosing the best by pairwise comparison

A comparison says with a positive result that its first argument is the better
one. A walk over the candidates keeps the best so far and replaces it by any that
is better. If the comparison orders the candidates strictly, the walk ends with the
one that is better than all others, and neither the order of the candidates nor
their division into groups matters.
-/

namespace Election

universe u
variable {α : Type u}

/-- The better of the best so far and a candidate. -/
def keep (compare : α → α → Int) : Option α → α → Option α
  | none, candidate => some candidate
  | some best, candidate => if compare candidate best > 0 then some candidate else some best

/-- The best of the candidates, in the order in which they come. -/
def elect (compare : α → α → Int) (candidates : List α) : Option α :=
  candidates.foldl (keep compare) none

/-- A strict order of the members of a set. -/
structure Orders (compare : α → α → Int) (S : α → Prop) : Prop where
  total : ∀ a b, S a → S b → a ≠ b → 0 < compare a b ∨ 0 < compare b a
  once : ∀ a b, S a → S b → 0 < compare a b → ¬ 0 < compare b a
  trans : ∀ a b d, S a → S b → S d → 0 < compare a b → 0 < compare b d → 0 < compare a d

/-- A candidate that is better than every other one. -/
structure Wins (compare : α → α → Int) (candidates : List α) (best : α) : Prop where
  stands : best ∈ candidates
  beats : ∀ other ∈ candidates, other ≠ best → 0 < compare best other

/-- Candidates with ranks of their own are ordered by these. -/
theorem Orders.of_rank {β : Type*} [LinearOrder β] {compare : α → α → Int} {S : α → Prop}
    (rank : α → β) (agrees : ∀ a b, S a → S b → (0 < compare a b ↔ rank a < rank b))
    (own : ∀ a b, S a → S b → rank a = rank b → a = b) : Orders compare S := by
  constructor
  · intro a b first second differ
    rw [agrees a b first second, agrees b a second first]
    exact lt_or_gt_of_ne fun same => differ (own a b first second same)
  · intro a b first second
    rw [agrees a b first second, agrees b a second first]
    exact lt_asymm
  · intro a b d first second third
    rw [agrees a b first second, agrees b d second third, agrees a d first third]
    exact lt_trans

section Elections

variable {compare : α → α → Int} {S : α → Prop} (orders : Orders compare S)
  {candidates others : List α} {best other : α}

include orders in
/-- There is at most one winner. -/
theorem Orders.unique (within : ∀ a ∈ candidates, S a) (first : Wins compare candidates best)
    (second : Wins compare candidates other) : best = other := by
  by_contra differ
  have forth := first.beats other second.stands (Ne.symm differ)
  have back := second.beats best first.stands differ
  exact orders.once best other (within _ first.stands) (within _ second.stands) forth back

/-- Who wins does not depend on the order of the candidates. -/
theorem Wins.perm (wins : Wins compare candidates best) (same : candidates.Perm others) :
    Wins compare others best := by
  constructor
  · exact same.mem_iff.mp wins.stands
  · intro other member differ
    exact wins.beats other (same.mem_iff.mpr member) differ

include orders in
/-- A walk that starts with a winner of the candidates before ends with one of all. -/
theorem Orders.walk {earlier : List α} (within : ∀ a ∈ earlier ++ candidates, S a)
    (wins : Wins compare earlier best) :
    ∃ final, candidates.foldl (keep compare) (some best) = some final ∧
      Wins compare (earlier ++ candidates) final := by
  induction candidates generalizing earlier best with
  | nil =>
    rw [List.append_nil]
    exact ⟨best, rfl, wins⟩
  | cons candidate rest inductionHypothesis =>
    rw [← List.singleton_append, ← List.append_assoc] at within ⊢
    have inside : ∀ a ∈ earlier ++ [candidate], S a :=
      fun a member => within a (List.mem_append_left _ member)
    have standing := inside best (List.mem_append_left _ wins.stands)
    have coming := inside candidate (List.mem_append_right _ List.mem_cons_self)
    rw [List.singleton_append, List.foldl_cons]
    by_cases better : 0 < compare candidate best
    · have next : keep compare (some best) candidate = some candidate := if_pos better
      rw [next]
      apply inductionHypothesis within
      constructor
      · exact List.mem_append_right _ List.mem_cons_self
      · intro other member differ
        rcases List.mem_append.mp member with old | new
        · by_cases same : other = best
          · exact same ▸ better
          · exact orders.trans candidate best other coming standing (inside other member) better
              (wins.beats other old same)
        · exact absurd (List.mem_singleton.mp new) differ
    · have next : keep compare (some best) candidate = some best := if_neg better
      rw [next]
      apply inductionHypothesis within
      constructor
      · exact List.mem_append_left _ wins.stands
      · intro other member differ
        rcases List.mem_append.mp member with old | new
        · exact wins.beats other old differ
        · rw [List.mem_singleton.mp new] at differ ⊢
          exact (orders.total best candidate standing coming (Ne.symm differ)).resolve_right better

include orders in
/-- The walk ends with the winner. -/
theorem Orders.elect_wins (within : ∀ a ∈ candidates, S a)
    (elected : elect compare candidates = some best) : Wins compare candidates best := by
  cases candidates with
  | nil => cases elected
  | cons first rest =>
    have alone : Wins compare [first] first := by
      constructor
      · exact List.mem_cons_self
      · intro other member differ
        exact absurd (List.mem_singleton.mp member) differ
    obtain ⟨final, found, wins⟩ :
        ∃ final, rest.foldl (keep compare) (some first) = some final ∧
          Wins compare ([first] ++ rest) final := orders.walk within alone
    have same : some best = some final := elected.symm.trans found
    rw [Option.some.inj same]
    exact wins

/-- Where a comparison goes by ranks, nobody has a smaller rank than who is elected. -/
theorem elect_least {β : Type*} [LinearOrder β] (rank : α → β)
    {candidates : List α} (agrees : ∀ a ∈ candidates, ∀ b ∈ candidates,
      (0 < compare a b ↔ rank a < rank b)) {best : α}
    (elected : elect compare candidates = some best) :
    ∀ other ∈ candidates, rank best ≤ rank other := by
  have walk : ∀ (list earlier : List α) (first : α), first ∈ candidates →
      (∀ other ∈ list, other ∈ candidates) → (∀ other ∈ earlier, rank first ≤ rank other) →
      list.foldl (keep compare) (some first) = some best →
      ∀ other ∈ earlier ++ list, rank best ≤ rank other := by
    intro list
    induction list with
    | nil =>
      intro earlier first _ _ least same other member
      cases same
      rw [List.append_nil] at member
      exact least other member
    | cons next rest inductionHypothesis =>
      intro earlier first stands within least same
      have coming := within next List.mem_cons_self
      have later := fun other member => within other (List.mem_cons_of_mem _ member)
      rw [List.append_cons]
      rw [List.foldl_cons] at same
      by_cases better : 0 < compare next first
      · have kept : keep compare (some first) next = some next := if_pos better
        rw [kept] at same
        have less := (agrees next coming first stands).mp better
        refine inductionHypothesis (earlier ++ [next]) next coming later ?_ same
        intro other member
        rcases List.mem_append.mp member with old | new
        · exact less.le.trans (least other old)
        · exact (List.mem_singleton.mp new) ▸ le_refl _
      · have kept : keep compare (some first) next = some first := if_neg better
        rw [kept] at same
        have more := (not_congr (agrees next coming first stands)).mp better
        refine inductionHypothesis (earlier ++ [next]) first stands later ?_ same
        intro other member
        rcases List.mem_append.mp member with old | new
        · exact least other old
        · exact (List.mem_singleton.mp new) ▸ not_lt.mp more
  cases candidates with
  | nil => cases elected
  | cons first rest =>
    intro other member
    apply walk rest [first] first List.mem_cons_self
      (fun other member => List.mem_cons_of_mem _ member) _ elected other
    · exact member
    · exact fun other member => (List.mem_singleton.mp member) ▸ le_refl _

theorem elect_none : elect compare candidates = none ↔ candidates = [] := by
  constructor
  · intro nobody
    have kept : ∀ rest : List α, ∀ best : α, rest.foldl (keep compare) (some best) ≠ none := by
      intro rest
      induction rest with
      | nil => exact fun best impossible => by cases impossible
      | cons candidate rest inductionHypothesis =>
        intro best
        rw [List.foldl_cons]
        by_cases better : 0 < compare candidate best
        · have next : keep compare (some best) candidate = some candidate := if_pos better
          rw [next]
          exact inductionHypothesis candidate
        · have next : keep compare (some best) candidate = some best := if_neg better
          rw [next]
          exact inductionHypothesis best
    cases candidates with
    | nil => rfl
    | cons first rest => exact absurd nobody (kept rest first)
  · rintro rfl
    rfl

include orders in
/-- The winner among the winners of groups wins against all. -/
theorem Orders.groups {groups : List (List α)} (within : ∀ a ∈ groups.flatten, S a)
    (elected : elect compare (groups.filterMap (elect compare)) = some best) :
    Wins compare groups.flatten best := by
  have each : ∀ group ∈ groups, ∀ a ∈ group, a ∈ groups.flatten :=
    fun group listed a member => List.mem_flatten.mpr ⟨group, listed, member⟩
  have winners : ∀ group ∈ groups, ∀ winner, elect compare group = some winner →
      Wins compare group winner :=
    fun group listed winner chosen =>
      orders.elect_wins (fun a member => within a (each group listed a member)) chosen
  have among : ∀ a ∈ groups.filterMap (elect compare), S a := by
    intro a member
    obtain ⟨group, listed, chosen⟩ := List.mem_filterMap.mp member
    exact within a (each group listed a (winners group listed a chosen).stands)
  have final := orders.elect_wins among elected
  obtain ⟨home, housed, chosen⟩ := List.mem_filterMap.mp final.stands
  have stands := each home housed best (winners home housed best chosen).stands
  constructor
  · exact stands
  · intro other member differ
    obtain ⟨group, listed, inside⟩ := List.mem_flatten.mp member
    cases top : elect compare group with
    | none =>
      rw [elect_none.mp top] at inside
      cases inside
    | some winner =>
      have local' := winners group listed winner top
      have known : winner ∈ groups.filterMap (elect compare) :=
        List.mem_filterMap.mpr ⟨group, listed, top⟩
      by_cases same : winner = best
      · subst same
        exact local'.beats other inside differ
      · have beaten := final.beats winner known same
        by_cases itself : other = winner
        · exact itself ▸ beaten
        · exact orders.trans best winner other (within best stands)
            (within winner (each group listed winner local'.stands)) (within other member) beaten
            (local'.beats other inside itself)

end Elections

end Election
