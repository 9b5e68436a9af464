import LinuxPtp.ClockRuns
import LinuxPtp.BestPointer

/-!
# The lists of foreign masters

The records of a port have different addresses, all of which have been allocated, so that a record
that is changed and put back takes exactly its own place.

This is an invariant of the model only: the code has pointers where the model has addresses. It is
what makes writing a record back by its address the same as writing through the pointer.
-/

namespace LinuxPtp

open RefPool

section Lists

variable {c : Clock} {a : Answers} {g : Guards} {s t : ClockState}

/-- A record that is put back takes its own place. -/
theorem withForeign_split {port : Port} (distinct : port.addresses.Nodup) {fc : ForeignClock}
    (member : fc ∈ port.foreignMasters) :
    ∃ before after, port.foreignMasters = before ++ fc :: after ∧
      ∀ changed : ForeignClock, changed.id = fc.id →
        (port.withForeign changed).foreignMasters = before ++ changed :: after := by
  obtain ⟨before, after, split⟩ := List.append_of_mem member
  refine ⟨before, after, split, ?_⟩
  intro changed same
  unfold Port.addresses at distinct
  rw [split, List.map_append, List.map_cons] at distinct
  obtain ⟨_, second, apart⟩ := List.nodup_append.mp distinct
  obtain ⟨absent, _⟩ := List.nodup_cons.mp second
  unfold Port.withForeign
  dsimp only
  rw [split, List.map_append, List.map_cons, if_pos same.symm]
  congr 1
  · apply (List.map_congr_left _).trans (List.map_id _)
    intro other member
    rw [if_neg]
    · rfl
    · intro equal
      exact apart _ (List.mem_map_of_mem member) _ List.mem_cons_self (equal.trans same)
  · congr 1
    apply (List.map_congr_left _).trans (List.map_id _)
    intro other member
    rw [if_neg]
    · rfl
    · intro equal
      exact absent ((equal.trans same) ▸ List.mem_map_of_mem member)

/-- The addresses of the records are different, and none of them is free. -/
structure Addressed (s : ClockState) : Prop where
  distinct : ∀ q, (s.ports q).addresses.Nodup
  allocated : ∀ q, ∀ id ∈ (s.ports q).addresses, id < s.nextForeign

/-- Whether addresses are told apart depends on the records and on the next free address. -/
theorem Addressed.congr (addressed : Addressed s)
    (same : ∀ q, (t.ports q).addresses = (s.ports q).addresses)
    (next : t.nextForeign = s.nextForeign) : Addressed t where
  distinct q := same q ▸ addressed.distinct q
  allocated q id member := by
    rw [next]
    exact addressed.allocated q id (same q ▸ member)

/-- A new record takes the next address, which no other record has. -/
theorem addressed_newForeignMaster (p : Nat) (m : PtpMessage) (addressed : Addressed s) :
    Addressed (newForeignMaster p m s) := by
  have here : ((newForeignMaster p m s).ports p).addresses =
      s.nextForeign :: (s.ports p).addresses := by
    unfold newForeignMaster
    dsimp only
    rw [withPort_same]
    rfl
  have other (q : Nat) (differ : q ≠ p) :
      ((newForeignMaster p m s).ports q).addresses = (s.ports q).addresses := by
    unfold newForeignMaster
    dsimp only
    rw [withPort_other differ]
  have next : (newForeignMaster p m s).nextForeign = s.nextForeign + 1 := rfl
  constructor
  · intro q
    by_cases equal : q = p
    · subst equal
      rw [here, List.nodup_cons]
      exact ⟨fun old => Nat.lt_irrefl _ (addressed.allocated q _ old), addressed.distinct q⟩
    · rw [other q equal]
      exact addressed.distinct q
  · intro q id member
    rw [next]
    by_cases equal : q = p
    · subst equal
      rw [here] at member
      rcases List.mem_cons.mp member with rfl | old
      · exact Nat.lt_succ_self _
      · exact (addressed.allocated q id old).trans (Nat.lt_succ_self _)
    · rw [other q equal] at member
      exact (addressed.allocated q id member).trans (Nat.lt_succ_self _)

/-- A message that goes into a record leaves its address. -/
theorem addressed_insert (now : Int) (fc : ForeignClock) (m : Stored) (p : Nat)
    (addressed : Addressed s) :
    Addressed (((fcInsert m (fcPrune now fc s).1 (fcPrune now fc s).2).2).withPort p
      (Port.withForeign (fcInsert m (fcPrune now fc s).1 (fcPrune now fc s).2).1)) := by
  apply addressed.congr
  · exact fun q => insert_addresses now fc m p q s
  · obtain ⟨msgs, same⟩ := fcPrune_state now fc s
    unfold fcInsert
    rw [same]
    rfl

/-- A foreign master is recorded under a new address or under the one that it has. -/
theorem addressed_addForeignMaster (p : Nat) (m : Stored) (addressed : Addressed s) :
    Addressed (addForeignMaster a p m s).2 := by
  unfold addForeignMaster
  split
  · exact addressed_newForeignMaster p m.msg addressed
  next fc _ => exact addressed_insert (a.pruned fc.id) fc m p addressed

theorem addressed_updateCurrentMaster (p : Nat) (m : Stored) (addressed : Addressed s) :
    Addressed (updateCurrentMaster c a p m s).2 := by
  unfold updateCurrentMaster
  split
  · exact addressed.congr (fun _ => rfl) rfl
  next fc _ =>
    split
    · exact addressed_addForeignMaster p m addressed
    · dsimp only
      generalize began : setTmo p .announceTimer _ = t
      have before : Addressed t := by
        rw [← began]
        apply addressed.congr
        · intro q
          unfold setTmo ClockState.withRunning
          by_cases here : q = p
          · subst here
            rw [withPort_same]
            split <;> split <;> rfl
          · rw [withPort_other here]
            split <;> split <;> rfl
        · split <;> split <;> rfl
      exact addressed_insert (a.pruned fc.id) fc m p before

/-- An announce is recorded by one of the two ways, each of which keeps addresses apart. -/
theorem addressed_processAnnounce (p : Nat) (m : Stored) (addressed : Addressed s) :
    Addressed (processAnnounce c a p m s).2 := by
  unfold processAnnounce
  split
  · exact addressed
  split
  · exact addressed
  · exact addressed
  · exact addressed
  all_goals first
    | exact (addressed_addForeignMaster p m addressed).congr (fun _ => rfl) rfl
    | exact (addressed_updateCurrentMaster p m addressed).congr (fun _ => rfl) rfl

theorem addressed_clearBest (p : Nat) (addressed : Addressed s) : Addressed (clearBest p s) := by
  apply addressed.congr
  · exact fun q => clearBest_addresses p q s
  · obtain ⟨_, _, same⟩ := clearBest_state p s
    rw [same]

/-- No effect makes two records share an address: only a new foreign master takes one, and it takes
the next. -/
theorem Effect.addressed (effect : Effect c a g s t) (addressed : Addressed s) : Addressed t := by
  rcases effect.kinds with ⟨m, _, _, _, _, rfl⟩ | rfl | quiet
  · exact addressed_processAnnounce g.here m addressed
  · exact addressed_clearBest g.here addressed
  · constructor
    · intro q
      unfold Port.addresses
      rcases quiet.foreign q with ⟨same, _⟩ | ⟨_, given, _⟩
      · rw [same]
        exact addressed.distinct q
      · rw [given]
        exact List.nodup_nil
    · intro q id member
      unfold Port.addresses at member
      rw [quiet.nextForeign]
      rcases quiet.foreign q with ⟨same, _⟩ | ⟨_, given, _⟩
      · rw [same] at member
        exact addressed.allocated q id member
      · rw [given] at member
        cases member

/-- The same for a series of effects, by induction on it. -/
theorem Effects.addressed (effects : Effects c a g s t) (addressed : Addressed s) : Addressed t :=
  effects.keeps addressed fun _ _ effect addressed => effect.addressed addressed

/-- An election changes no address. -/
theorem decided_addressed (s : ClockState) (addressed : Addressed s) :
    Addressed (decided c a s).2 := by
  have listed := electFrom_addresses (c := c) (a := a) c.ports none s
  have next : (electFrom c a c.ports none s).2.nextForeign = s.nextForeign := by
    obtain ⟨_, _, _, same⟩ := electFrom_state (c := c) (a := a) c.ports none s
    rw [same]
  unfold decided
  rw [adoptBest_eq]
  apply addressed.congr
  · exact listed
  · exact next

end Lists

end LinuxPtp
