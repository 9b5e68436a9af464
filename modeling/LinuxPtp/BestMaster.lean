import LinuxPtp.ForeignMasters

/-!
# The best foreign master

A port compares the foreign masters that qualify, each described by its newest announce, and the
clock compares what its ports found. Both are elections by a comparison that orders the
candidates, so that neither the order of the records in a port nor that of the ports matters.

The elections are the loops of the source with the comparison of the code. What they find is then
described without loops, as a candidate that stands up to all others, for a comparison that need
only be an order on the candidates there are.
-/

namespace LinuxPtp

open RefPool Election

/-! ## Pruning -/

namespace ForeignClock

/-- A record is determined by its address, its announces and its data set. -/
theorem ext_of {fc other : ForeignClock} (ids : fc.id = other.id)
    (messages : fc.messages = other.messages) (datasets : fc.dataset = other.dataset) :
    fc = other := by
  obtain ⟨id, list, count, dataset, counted⟩ := fc
  obtain ⟨id', list', count', dataset', counted'⟩ := other
  simp only at ids messages datasets counted counted'
  subst ids messages datasets counted counted'
  rfl

/-- Keep the newest announces only. -/
def keepNewest (kept : Nat) (fc : ForeignClock) : ForeignClock :=
  { fc with
    messages := fc.messages.take kept
    nMessages := (fc.messages.take kept).length
    counted := rfl }

/-- The announces that pruning leaves. -/
def fresh (now : Int) (fc : ForeignClock) : List Stored :=
  (fc.messages.take foreignMasterThreshold).rdropWhile fun m => !msgCurrent m.msg now

/-- A record after pruning. -/
def pruned (now : Int) (fc : ForeignClock) : ForeignClock :=
  { fc with messages := fc.fresh now, nMessages := (fc.fresh now).length, counted := rfl }

end ForeignClock

/-- Dropping announces leaves the newest ones. -/
theorem fcDropLast_iterate (count : Nat) (fc : ForeignClock) (s : ClockState) :
    (fcDropLast^[count] (fc, s)).1 = fc.keepNewest (fc.messages.length - count) := by
  induction count generalizing fc s with
  | zero =>
    apply ForeignClock.ext_of
    · rfl
    · exact (List.take_length).symm
    · rfl
  | succ count inductionHypothesis =>
    rw [Function.iterate_succ_apply]
    cases last : fc.messages.getLast? with
    | none =>
      have empty : fc.messages = [] := List.getLast?_eq_none_iff.mp last
      have still : fcDropLast (fc, s) = (fc, s) := by simp [fcDropLast, last]
      rw [still, inductionHypothesis, empty]
      simp
    | some m =>
      have dropped : fcDropLast (fc, s) = (fc.dropLast, s.put m.cell) := by
        simp [fcDropLast, last]
      rw [dropped, inductionHypothesis]
      apply ForeignClock.ext_of
      · rfl
      · simp only [ForeignClock.keepNewest, ForeignClock.dropLast, List.length_dropLast]
        rw [List.dropLast_eq_take, List.take_take]
        congr 1
        omega
      · rfl

/-- The state changes in the pool only. -/
theorem fcDropLast_iterate_state (count : Nat) (fc : ForeignClock) (s : ClockState) :
    ∃ msgs, (fcDropLast^[count] (fc, s)).2 = { s with msgs := msgs } := by
  induction count generalizing fc s with
  | zero => exact ⟨s.msgs, rfl⟩
  | succ count inductionHypothesis =>
    rw [Function.iterate_succ_apply]
    cases last : fc.messages.getLast? with
    | none =>
      have still : fcDropLast (fc, s) = (fc, s) := by simp [fcDropLast, last]
      rw [still]
      exact inductionHypothesis fc s
    | some m =>
      have dropped : fcDropLast (fc, s) = (fc.dropLast, s.put m.cell) := by
        simp [fcDropLast, last]
      rw [dropped]
      obtain ⟨msgs, same⟩ := inductionHypothesis fc.dropLast (s.put m.cell)
      exact ⟨msgs, same⟩

/-- Dropping from the end while a condition holds. -/
theorem take_rdropWhile {α : Type*} (stale : α → Bool) (list : List α) :
    list.take (list.length - (list.reverse.takeWhile stale).length) = list.rdropWhile stale := by
  have split := List.takeWhile_append_dropWhile (p := stale) (l := list.reverse)
  have whole : list.rdropWhile stale ++ (list.reverse.takeWhile stale).reverse = list := by
    rw [List.rdropWhile, ← List.reverse_append, split, List.reverse_reverse]
  have sizes := congrArg List.length whole
  rw [List.length_append, List.length_reverse] at sizes
  have size : list.length - (list.reverse.takeWhile stale).length =
      (list.rdropWhile stale).length := by omega
  calc list.take (list.length - (list.reverse.takeWhile stale).length)
      = (list.rdropWhile stale ++ (list.reverse.takeWhile stale).reverse).take
          (list.rdropWhile stale).length := by rw [whole, size]
    _ = list.rdropWhile stale := List.take_left

theorem fcPrune_record (now : Int) (fc : ForeignClock) (s : ClockState) :
    (fcPrune now fc s).1 = fc.pruned now := by
  have first := fcDropLast_iterate (fc.nMessages - foreignMasterThreshold) fc s
  unfold fcPrune fcExpire
  dsimp only
  rw [fcDropLast_iterate, first]
  apply ForeignClock.ext_of
  · rfl
  · have kept : fc.messages.take (fc.messages.length - (fc.nMessages - foreignMasterThreshold)) =
        fc.messages.take foreignMasterThreshold := by
      rw [fc.counted]
      rcases Nat.le_total fc.messages.length foreignMasterThreshold with few | many
      · rw [Nat.sub_eq_zero_of_le few, Nat.sub_zero, List.take_length, List.take_of_length_le few]
      · congr 1
        omega
    simp only [ForeignClock.keepNewest, ForeignClock.pruned, ForeignClock.fresh, kept]
    exact take_rdropWhile _ _
  · rfl

theorem fcPrune_state (now : Int) (fc : ForeignClock) (s : ClockState) :
    ∃ msgs, (fcPrune now fc s).2 = { s with msgs := msgs } := by
  obtain ⟨first, same⟩ :=
    fcDropLast_iterate_state (fc.nMessages - foreignMasterThreshold) fc s
  obtain ⟨second, again⟩ := fcDropLast_iterate_state
    (((fcDropLast^[fc.nMessages - foreignMasterThreshold] (fc, s)).1.messages.reverse.takeWhile
      fun m => !msgCurrent m.msg now).length)
    (fcDropLast^[fc.nMessages - foreignMasterThreshold] (fc, s)).1
    (fcDropLast^[fc.nMessages - foreignMasterThreshold] (fc, s)).2
  refine ⟨second, ?_⟩
  unfold fcPrune fcExpire
  dsimp only at again ⊢
  rw [again, same]

theorem fcClear_record (fc : ForeignClock) (s : ClockState) :
    (fcClear fc s).1 = fc.keepNewest 0 := by
  unfold fcClear
  rw [fcDropLast_iterate, fc.counted, Nat.sub_self]

theorem fcClear_state (fc : ForeignClock) (s : ClockState) :
    ∃ msgs, (fcClear fc s).2 = { s with msgs := msgs } := fcDropLast_iterate_state ..

/-! ## Elections -/

section Elections

variable (c : Clock) (a : Answers)

/-- A record as it is compared, if it qualifies. -/
def qualify (p : Nat) (fc : ForeignClock) : Option ForeignClock :=
  match fc.messages.head? with
  | none => none
  | some tmp =>
    let fc := (fc.withDataset (announceToDataset c p tmp.msg)).pruned (a.pruned fc.id)
    if fc.nMessages < foreignMasterThreshold then none else some fc

/-- The qualified foreign masters of a port. -/
def candidates (p : Nat) (port : Port) : List ForeignClock :=
  if (c.setup p).masterOnly then [] else port.foreignMasters.filterMap (qualify c a p)

/-- Considering a record keeps the better one. -/
theorem considerForeign_best (p : Nat) (best : Option ForeignClock) (fc : ForeignClock)
    (s : ClockState) :
    (considerForeign c a p best fc s).1 =
      (qualify c a p fc).toList.foldl (keep c.compareForeign) best := by
  unfold considerForeign qualify
  cases fc.messages.head? with
  | none => rfl
  | some tmp =>
    have record := fcPrune_record (a.pruned fc.id)
      (fc.withDataset (announceToDataset c p tmp.msg)) s
    dsimp only [ForeignClock.withDataset] at record ⊢
    rw [record]
    split
    · rfl
    · cases best with
      | none => rfl
      | some top =>
        simp only [Option.toList_some, List.foldl_cons, List.foldl_nil, keep]
        split <;> rfl

theorem considerForeign_state (p : Nat) (best : Option ForeignClock) (fc : ForeignClock)
    (s : ClockState) :
    ∃ msgs, (considerForeign c a p best fc s).2.2 = { s with msgs := msgs } := by
  unfold considerForeign
  cases fc.messages.head? with
  | none => exact ⟨s.msgs, rfl⟩
  | some tmp =>
    obtain ⟨msgs, same⟩ := fcPrune_state (a.pruned fc.id)
      (fc.withDataset (announceToDataset c p tmp.msg)) s
    dsimp only [ForeignClock.withDataset] at same ⊢
    split
    · exact ⟨msgs, same⟩
    · cases best with
      | none => exact ⟨msgs, same⟩
      | some top =>
        dsimp only
        split
        · exact ⟨msgs, same⟩
        · obtain ⟨later, again⟩ := fcClear_state _ _
          exact ⟨later, again.trans (by rw [same])⟩

/-- The loop over the records is an election among those that qualify. -/
theorem considerAll_best (p : Nat) (best : Option ForeignClock) (list : List ForeignClock)
    (s : ClockState) :
    (considerAll c a p best list s).1 =
      (list.filterMap (qualify c a p)).foldl (keep c.compareForeign) best := by
  induction list generalizing best s with
  | nil => rfl
  | cons fc rest inductionHypothesis =>
    unfold considerAll
    dsimp only
    rw [inductionHypothesis, considerForeign_best, ← List.foldl_append, List.filterMap_cons]
    cases qualify c a p fc <;> rfl

theorem considerAll_state (p : Nat) (best : Option ForeignClock) (list : List ForeignClock)
    (s : ClockState) : ∃ msgs, (considerAll c a p best list s).2.2 = { s with msgs := msgs } := by
  induction list generalizing best s with
  | nil => exact ⟨s.msgs, rfl⟩
  | cons fc rest inductionHypothesis =>
    obtain ⟨first, same⟩ := considerForeign_state c a p best fc s
    obtain ⟨second, again⟩ := inductionHypothesis (considerForeign c a p best fc s).1
      (considerForeign c a p best fc s).2.2
    unfold considerAll
    exact ⟨second, again.trans (by rw [same])⟩

theorem portComputeBest_best (p : Nat) (s : ClockState) :
    (portComputeBest c a p s).1 = elect c.compareForeign (candidates c a p (s.ports p)) := by
  unfold portComputeBest candidates
  split
  · rfl
  · exact considerAll_best ..

/-- Computing the best of a port leaves the other ports alone. -/
theorem portComputeBest_other {p q : Nat} (differ : q ≠ p) (s : ClockState) :
    (portComputeBest c a p s).2.ports q = s.ports q := by
  unfold portComputeBest
  split
  · exact Function.update_of_ne differ ..
  · obtain ⟨msgs, same⟩ := considerAll_state c a p none (s.ports p).foreignMasters s
    dsimp only
    rw [same]
    exact Function.update_of_ne differ ..

/-- A foreign master as the clock keeps it. -/
def bestOf (p : Nat) (fc : ForeignClock) : Best := ⟨p, fc.id, fc.dataset⟩

/-- The comparison of foreign masters of the clock. -/
def Clock.compareBest (c : Clock) (other best : Best) : Int :=
  c.dscmp (some other.dataset) (some best.dataset)

theorem keepBest_eq (p : Nat) (best : Option Best) (found : Option ForeignClock) :
    keepBest c p best found =
      (found.map (bestOf p)).toList.foldl (keep c.compareBest) best := by
  cases found with
  | none => rfl
  | some fc =>
    cases best with
    | none => rfl
    | some top => rfl

/-- An election among the foreign masters of one port. -/
theorem elect_bestOf (p : Nat) (list : List ForeignClock) :
    (elect c.compareForeign list).map (bestOf p) = elect c.compareBest (list.map (bestOf p)) := by
  have walk : ∀ best, (list.foldl (keep c.compareForeign) best).map (bestOf p) =
      (list.map (bestOf p)).foldl (keep c.compareBest) (best.map (bestOf p)) := by
    induction list with
    | nil => exact fun best => rfl
    | cons fc rest inductionHypothesis =>
      intro best
      rw [List.foldl_cons, List.map_cons, List.foldl_cons, inductionHypothesis]
      congr 1
      cases best with
      | none => rfl
      | some top => exact apply_ite (Option.map (bestOf p)) (c.compareForeign fc top > 0) _ _
  exact walk none

/-- The candidates of the ports, as the clock compares them. -/
def contenders (ports : List Nat) (s : ClockState) : List (List Best) :=
  ports.map fun p => (candidates c a p (s.ports p)).map (bestOf p)

/-- The first loop of the state decision is an election among the winners of the ports. -/
theorem electBest_elect {ports : List Nat} (distinct : ports.Nodup) (s : ClockState) :
    (electBest c a ports s).1 =
      elect c.compareBest ((contenders c a ports s).filterMap (elect c.compareBest)) := by
  have walk : ∀ (ports : List Nat), ports.Nodup → ∀ (best : Option Best) (now : ClockState),
      (∀ p ∈ ports, now.ports p = s.ports p) →
      (ports.foldl (fun walked p =>
        (keepBest c p walked.1 (portComputeBest c a p walked.2).1,
          (portComputeBest c a p walked.2).2)) (best, now)).1 =
      ((contenders c a ports s).filterMap (elect c.compareBest)).foldl
        (keep c.compareBest) best := by
    intro ports
    induction ports with
    | nil => exact fun _ best now _ => rfl
    | cons p rest inductionHypothesis =>
      intro distinct best now same
      obtain ⟨absent, later⟩ := List.nodup_cons.mp distinct
      have here := same p List.mem_cons_self
      have there : ∀ q ∈ rest, (portComputeBest c a p now).2.ports q = s.ports q := by
        intro q member
        have differ : q ≠ p := by
          rintro rfl
          exact absent member
        rw [portComputeBest_other c a differ]
        exact same q (List.mem_cons_of_mem _ member)
      rw [List.foldl_cons, inductionHypothesis later _ _ there, keepBest_eq,
        portComputeBest_best, here, elect_bestOf, ← List.foldl_append]
      congr 1
      simp only [contenders, List.map_cons, List.filterMap_cons]
      cases elect c.compareBest ((candidates c a p (s.ports p)).map (bestOf p)) <;> rfl
  exact walk ports distinct none s fun _ _ => rfl

end Elections

end LinuxPtp
