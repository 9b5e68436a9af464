import LinuxPtp.RecordedAnnounces

/-!
# What comes of a state decision

The state decision elects the best master first and then tells every port what to do. What a port
is told depends on what was elected and on the port alone, and the parent data set is in the end
either that of a grandmaster or all of it what the best master announces.

The choice of the best master and what each port is told are separated, and for each port the
outcome of both is found. A port that is told nothing keeps its state, which is how the statements
on settled networks can speak of what does not change.
-/

namespace LinuxPtp

open Election

/-! ## What was elected -/

section Elected

variable {c : Clock} {a : Answers} {s : ClockState} {p : Nat}

/-- A candidate has an announce, which its data set describes. -/
theorem candidate_first {port : Port} {fc : ForeignClock}
    (candidate : fc ∈ candidates c a p port) :
    ∃ m, fc.messages.head? = some m ∧ fc.dataset = announceToDataset c p m.msg := by
  unfold candidates at candidate
  split at candidate
  · cases candidate
  obtain ⟨record, _, qualified⟩ := List.mem_filterMap.mp candidate
  unfold qualify at qualified
  split at qualified
  · cases qualified
  next tmp newest =>
    dsimp only at qualified
    split at qualified
    · cases qualified
    next enough =>
      cases qualified
      have size : foreignMasterThreshold ≤ ((record.withDataset
          (announceToDataset c p tmp.msg)).fresh (a.pruned record.id)).length := Nat.not_lt.mp enough
      cases first : ((record.withDataset (announceToDataset c p tmp.msg)).pruned
          (a.pruned record.id)).messages.head? with
      | none =>
        have empty : (record.withDataset (announceToDataset c p tmp.msg)).fresh
            (a.pruned record.id) = [] := List.head?_eq_none_iff.mp first
        rw [empty] at size
        cases size
      | some m =>
        have same : record.messages.head? = some m := pruned_head first
        rw [newest] at same
        cases same
        exact ⟨tmp, rfl, rfl⟩

/-- The pointer of a port leads to the record that was found. -/
theorem portComputeBest_bestForeign (distinct : (s.ports p).addresses.Nodup) :
    ((portComputeBest c a p s).2.ports p).bestForeign = (portComputeBest c a p s).1 := by
  have listed := portComputeBest_addresses (c := c) (a := a) p p s
  unfold portComputeBest at listed ⊢
  split
  · rw [withPort_same]
    rfl
  next slave =>
    rw [if_neg slave] at listed
    dsimp only at listed ⊢
    rw [withPort_same] at listed ⊢
    unfold Port.bestForeign
    dsimp only
    cases found : (considerAll c a p none (s.ports p).foreignMasters s).1 with
    | none => rfl
    | some fc =>
      rcases considerAll_winner found with impossible | member
      · cases impossible
      · have addresses : List.map ForeignClock.id (considerAll c a p none
            (s.ports p).foreignMasters s).2.1 = (s.ports p).addresses := listed
        exact find_listed (addresses ▸ distinct) member

theorem electFrom_bestForeign {list : List Nat} (once : list.Nodup)
    (distinct : ∀ q, (s.ports q).addresses.Nodup) (best : Option Best) {q : Nat}
    (member : q ∈ list) : ((electFrom c a list best s).2.ports q).bestForeign =
      elect c.compareForeign (candidates c a q (s.ports q)) := by
  induction list generalizing best s with
  | nil => cases member
  | cons p rest inductionHypothesis =>
    obtain ⟨absent, later⟩ := List.nodup_cons.mp once
    rw [electFrom_cons]
    rcases List.mem_cons.mp member with rfl | there
    · rw [electFrom_other absent, portComputeBest_bestForeign (distinct q), portComputeBest_best]
    · have differ : q ≠ p := by
        rintro rfl
        exact absent there
      rw [inductionHypothesis later _ _ there, portComputeBest_other c a differ]
      intro r
      rw [portComputeBest_addresses]
      exact distinct r

/-- The best of the clock was elected on its port. -/
theorem electFrom_elected {list : List Nat} (once : list.Nodup) {best : Option Best} {b : Best}
    (elected : (electFrom c a list best s).1 = some b) :
    best = some b ∨ b.port ∈ list ∧ ∃ fc,
      elect c.compareForeign (candidates c a b.port (s.ports b.port)) = some fc ∧
        b = bestOf b.port fc := by
  induction list generalizing best s with
  | nil => exact Or.inl elected
  | cons p rest inductionHypothesis =>
    obtain ⟨absent, later⟩ := List.nodup_cons.mp once
    rw [electFrom_cons] at elected
    rcases inductionHypothesis later elected with kept | ⟨member, fc, found, same⟩
    · rcases keepBest_cases kept with before | ⟨fc, found, rfl⟩
      · exact Or.inl before
      · rw [portComputeBest_best] at found
        exact Or.inr ⟨List.mem_cons_self, fc, found, rfl⟩
    · have differ : b.port ≠ p := by
        rintro same
        exact absent (same ▸ member)
      rw [portComputeBest_other c a differ] at found
      exact Or.inr ⟨List.mem_cons_of_mem _ member, fc, found, same⟩

theorem decided_bestForeign (addressed : Addressed s) (mine : p ∈ c.ports) :
    ((decided c a s).2.ports p).bestForeign =
      elect c.compareForeign (candidates c a p (s.ports p)) := by
  have elected := electFrom_bestForeign (c := c) (a := a) ports_nodup addressed.distinct none mine
  unfold decided
  rw [adoptBest_eq]
  exact elected

theorem decided_dds (c : Clock) (a : Answers) (s : ClockState) :
    (decided c a s).2.dds = s.dds := by
  obtain ⟨_, _, _, _, _, _, _, _, same⟩ := decided_state (c := c) (a := a) s
  rw [same]

theorem decided_port_state (c : Clock) (a : Answers) (s : ClockState) (p : Nat) :
    ((decided c a s).2.ports p).state = (s.ports p).state := by
  obtain ⟨_, _, _, _, _, _, _, each, same⟩ := decided_state (c := c) (a := a) s
  obtain ⟨_, _, here⟩ := each p
  rw [same]
  dsimp only
  rw [here]

/-- The best master after the election: its port and a candidate there, the first announce of
which is found. -/
theorem decided_best (addressed : Addressed s) {b : Best}
    (selected : (decided c a s).2.best = some b) :
    b.port ∈ c.ports ∧ ∃ fc m, fc ∈ candidates c a b.port (s.ports b.port) ∧
      b.dataset = fc.dataset ∧ firstOfBest b (decided c a s).2 = some m ∧
      b.dataset = announceToDataset c b.port m.msg := by
  unfold decided at selected ⊢
  rw [adoptBest_eq] at selected ⊢
  have elected : (electFrom c a c.ports none s).1 = some b := selected
  rcases electFrom_elected ports_nodup elected with impossible | ⟨mine, fc, found, same⟩
  · cases impossible
  rcases electFrom_pointer ports_nodup elected with impossible | ⟨_, points⟩
  · cases impossible
  have candidate := elect_mem found
  obtain ⟨m, first, described⟩ := candidate_first candidate
  have dataset : b.dataset = fc.dataset := by rw [same]; rfl
  have record := electFrom_bestForeign (c := c) (a := a) ports_nodup addressed.distinct none mine
  rw [found] at record
  unfold Port.bestForeign at record
  rw [points, Option.bind_some] at record
  refine ⟨mine, fc, m, candidate, dataset, ?_, dataset.trans described⟩
  exact Option.bind_eq_some_iff.mpr ⟨fc, record, first⟩

/-- The port of the best master has a best foreign master. -/
theorem decided_pointer (addressed : Addressed s) {b : Best}
    (selected : (decided c a s).2.best = some b) :
    ((decided c a s).2.ports b.port).bestForeign.isSome := by
  obtain ⟨mine, _⟩ := decided_best addressed selected
  rw [decided_bestForeign addressed mine]
  unfold decided at selected
  rw [adoptBest_eq] at selected
  have elected : (electFrom c a c.ports none s).1 = some b := selected
  rcases electFrom_elected ports_nodup elected with impossible | ⟨_, fc, found, _⟩
  · cases impossible
  · rw [found]
    rfl

end Elected

/-! ## What the ports are told -/

section Telling

variable {c : Clock} {a : Answers} {s t d : ClockState} {p : Nat} {rest : List Nat}

/-- What the recommendations for the ports that are left depend on is as it was. -/
structure Alike (rest : List Nat) (d t : ClockState) : Prop where
  best : t.best = d.best
  dds : t.dds = d.dds
  ports : ∀ p ∈ rest, t.ports p = d.ports p

theorem Alike.decision (alike : Alike (p :: rest) d t) :
    bmcStateDecision c p t = bmcStateDecision c p d := by
  unfold bmcStateDecision clockDefaultDs
  rw [alike.best, alike.dds, alike.ports p List.mem_cons_self]

theorem Alike.recommend (alike : Alike (p :: rest) d t) (absent : p ∉ rest) {freshBest : Bool} :
    Alike rest d (recommend c a freshBest t p) := by
  obtain ⟨_, _, _, _, _, _, same⟩ := informed_state (c := c) (bmcStateDecision c p t) t
  obtain ⟨_, _, _, _, _, frame⟩ := (portDispatch_touches c a p
    (recommendation (bmcStateDecision c p t)) freshBest
    (informed c (bmcStateDecision c p t) t)).frame
  rw [recommend_eq, frame, same]
  constructor
  · exact alike.best
  · exact alike.dds
  · intro q member
    have differ : q ≠ p := by
      rintro rfl
      exact absent member
    dsimp only
    rw [Function.update_of_ne differ]
    exact alike.ports q (List.mem_cons_of_mem _ member)

/-- What the clock goes by is taken over before a port is told. -/
theorem recommend_parent (freshBest : Bool) (t : ClockState) (p : Nat) :
    (recommend c a freshBest t p).parent = (informed c (bmcStateDecision c p t) t).parent ∧
      (recommend c a freshBest t p).stepsRemoved =
        (informed c (bmcStateDecision c p t) t).stepsRemoved := by
  obtain ⟨_, _, _, _, _, frame⟩ := (portDispatch_touches c a p
    (recommendation (bmcStateDecision c p t)) freshBest
    (informed c (bmcStateDecision c p t) t)).frame
  rw [recommend_eq, frame]
  exact ⟨rfl, rfl⟩

/-- Nothing is taken over before a port is told anything else. -/
theorem informed_still {recommended : PortState} (notGrand : recommended ≠ .grandMaster)
    (notSlave : recommended ≠ .slave) : informed c recommended t = t := by
  unfold informed
  split
  · exact absurd rfl notGrand
  · exact absurd rfl notSlave
  · rfl

/-- A port that was told is not told again. -/
theorem recommended_elsewhere {list : List Nat} (absent : p ∉ list) {freshBest : Bool} :
    (list.foldl (recommend c a freshBest) t).ports p = t.ports p := by
  induction list generalizing t with
  | nil => rfl
  | cons q rest inductionHypothesis =>
    have differ : p ≠ q := List.ne_of_not_mem_cons absent
    obtain ⟨_, _, _, _, _, _, same⟩ := informed_state (c := c) (bmcStateDecision c q t) t
    rw [List.foldl_cons, inductionHypothesis (List.not_mem_of_not_mem_cons absent), recommend_eq,
      portDispatch_elsewhere differ, same]

/-- Every port is told what the elected master suggests. -/
theorem recommended_port {list : List Nat} (once : list.Nodup) (alike : Alike list d t)
    (member : p ∈ list) (freshBest : Bool) :
    ∃ u, u.ports p = d.ports p ∧ (list.foldl (recommend c a freshBest) t).ports p =
      (portDispatch c a p (recommendation (bmcStateDecision c p d)) freshBest u).ports p := by
  induction list generalizing t with
  | nil => cases member
  | cons q rest inductionHypothesis =>
    obtain ⟨absent, later⟩ := List.nodup_cons.mp once
    rw [List.foldl_cons]
    by_cases here : p = q
    · subst here
      obtain ⟨_, _, _, _, _, _, same⟩ := informed_state (c := c) (bmcStateDecision c p t) t
      refine ⟨informed c (bmcStateDecision c p t) t, ?_, ?_⟩
      · rw [same]
        exact alike.ports p List.mem_cons_self
      · rw [recommended_elsewhere absent, recommend_eq, alike.decision]
    · exact inductionHypothesis later (alike.recommend absent)
        ((List.mem_cons.mp member).resolve_left here)

/-- A clock that tells a port to be grandmaster, and none to follow a master, goes by itself. -/
theorem recommended_grandmaster {list : List Nat} (once : list.Nodup) (alike : Alike list d t)
    (none : ∀ p ∈ list, bmcStateDecision c p d ≠ .slave) {freshBest : Bool}
    (began : (∃ p ∈ list, bmcStateDecision c p d = .grandMaster) ∨ IsGrandmaster c d.dds t) :
    IsGrandmaster c d.dds (list.foldl (recommend c a freshBest) t) := by
  induction list generalizing t with
  | nil => exact began.resolve_left fun ⟨_, member, _⟩ => List.not_mem_nil member
  | cons q rest inductionHypothesis =>
    obtain ⟨absent, later⟩ := List.nodup_cons.mp once
    obtain ⟨parent, steps⟩ := recommend_parent (c := c) (a := a) freshBest t q
    rw [List.foldl_cons]
    apply inductionHypothesis later (alike.recommend absent)
      (fun p member => none p (List.mem_cons_of_mem _ member))
    by_cases grand : bmcStateDecision c q d = .grandMaster
    · right
      rw [← alike.decision] at grand
      unfold IsGrandmaster
      rw [parent, steps, grand, ← alike.dds]
      exact ⟨rfl, rfl⟩
    · have notSlave := none q List.mem_cons_self
      rcases began with ⟨p, member, told⟩ | leads
      · left
        rcases List.mem_cons.mp member with rfl | there
        · exact absurd told grand
        · exact ⟨p, there, told⟩
      · right
        rw [← alike.decision] at grand notSlave
        unfold IsGrandmaster
        rw [parent, steps, informed_still grand notSlave]
        exact leads

/-- The parent data set is what a data set of another clock says. -/
def GoesByDataset (dataset : Dataset) (s : ClockState) : Prop :=
  s.stepsRemoved = 1 + dataset.stepsRemoved ∧ s.parent =
    { parentPortIdentity := dataset.sender
      grandmasterIdentity := dataset.identity
      grandmasterClockQuality := dataset.quality
      grandmasterPriority1 := dataset.priority1
      grandmasterPriority2 := dataset.priority2 }

theorem GoesByDataset.congr {dataset : Dataset} (goesBy : GoesByDataset dataset s)
    (parent : t.parent = s.parent) (steps : t.stepsRemoved = s.stepsRemoved) :
    GoesByDataset dataset t := by
  unfold GoesByDataset
  rw [parent, steps]
  exact goesBy

/-- What is taken over before a port is told to follow the best master. -/
theorem informed_slave {b : Best} {m : Stored} (best : t.best = some b)
    (first : firstOfBest b t = some m)
    (described : b.dataset = announceToDataset c b.port m.msg) :
    GoesByDataset b.dataset (informed c .slave t) := by
  unfold informed clockUpdateSlave
  rw [best]
  dsimp only
  rw [first]
  unfold GoesByDataset follow
  dsimp only
  rw [described]
  exact ⟨rfl, rfl⟩

/-- One port is told to follow the best master, and the others are told nothing that changes what
the clock goes by. -/
theorem recommended_slave {list : List Nat} (once : list.Nodup) (alike : Alike list d t) {b : Best}
    {m : Stored} (best : d.best = some b) (first : firstOfBest b d = some m)
    (described : b.dataset = announceToDataset c b.port m.msg)
    (told : bmcStateDecision c b.port d = .slave)
    (others : ∀ p ∈ list, p ≠ b.port →
      bmcStateDecision c p d ≠ .grandMaster ∧ bmcStateDecision c p d ≠ .slave)
    {freshBest : Bool} (began : b.port ∈ list ∨ GoesByDataset b.dataset t) :
    GoesByDataset b.dataset (list.foldl (recommend c a freshBest) t) := by
  induction list generalizing t with
  | nil => exact began.resolve_left List.not_mem_nil
  | cons q rest inductionHypothesis =>
    obtain ⟨absent, later⟩ := List.nodup_cons.mp once
    obtain ⟨parent, steps⟩ := recommend_parent (c := c) (a := a) freshBest t q
    rw [List.foldl_cons]
    apply inductionHypothesis later (alike.recommend absent)
      (fun p member => others p (List.mem_cons_of_mem _ member))
    by_cases here : q = b.port
    · subst here
      right
      apply GoesByDataset.congr _ parent steps
      rw [alike.decision, told]
      apply informed_slave (alike.best.trans best) _ described
      unfold firstOfBest at first ⊢
      rw [alike.ports b.port List.mem_cons_self]
      exact first
    · obtain ⟨notGrand, notSlave⟩ := others q List.mem_cons_self here
      rw [← alike.decision] at notGrand notSlave
      rw [informed_still notGrand notSlave] at parent steps
      rcases began with member | goesBy
      · exact Or.inl ((List.mem_cons.mp member).resolve_left (Ne.symm here))
      · exact Or.inr (goesBy.congr parent steps)

end Telling

/-! ## The outcome -/

section Outcome

variable {c : Clock} {a : Answers} {s : ClockState} {p : Nat}

/-- The clock is better than every master that it knows of. -/
def BeatsBest (c : Clock) (a : Answers) (s : ClockState) : Prop :=
  c.dscmp (some (clockDefaultDs c s)) ((decided c a s).2.best.map Best.dataset) > 0

instance (c : Clock) (a : Answers) (s : ClockState) : Decidable (BeatsBest c a s) :=
  inferInstanceAs (Decidable (_ > _))

theorem decided_defaultDs (c : Clock) (a : Answers) (s : ClockState) :
    clockDefaultDs c (decided c a s).2 = clockDefaultDs c s := by
  unfold clockDefaultDs
  rw [decided_dds]

/-- A clock that tells one of its ports to be grandmaster, and none to follow a master, goes by
itself. -/
theorem outcome_grandmaster (none : ∀ p ∈ c.ports, bmcStateDecision c p (decided c a s).2 ≠ .slave)
    (grand : ∃ p ∈ c.ports, bmcStateDecision c p (decided c a s).2 = .grandMaster) :
    IsGrandmaster c s.dds (handleStateDecisionEvent c a s) := by
  rw [handleStateDecisionEvent_eq, ← decided_dds c a s]
  exact recommended_grandmaster ports_nodup ⟨rfl, rfl, fun _ _ => rfl⟩ none (Or.inl grand)

/-- What the ports of a clock of a class up to 127 are told. -/
theorem decision_low (low : s.dds.clockQuality.clockClass ≤ 127)
    (heard : ((decided c a s).2.ports p).bestForeign = none → (s.ports p).state ≠ .listening) :
    bmcStateDecision c p (decided c a s).2 =
      if c.dscmp (some (clockDefaultDs c s)) (((decided c a s).2.ports p).bestForeign.map
        ForeignClock.dataset) > 0 then .grandMaster else .passive := by
  rw [← decided_port_state c a s p] at heard
  unfold bmcStateDecision
  dsimp only
  rw [decided_dds, if_pos low, decided_defaultDs, if_neg]
  rintro ⟨nothing, listening⟩
  exact heard (by simpa using nothing) listening

/-- What the ports of another clock are told. -/
theorem decision_high (high : ¬s.dds.clockQuality.clockClass ≤ 127)
    (heard : ((decided c a s).2.ports p).bestForeign = none → (s.ports p).state ≠ .listening) :
    bmcStateDecision c p (decided c a s).2 =
      if BeatsBest c a s then .grandMaster
      else if (decided c a s).2.best.map Best.port = some p then .slave
      else if c.dscmp ((decided c a s).2.best.map Best.dataset)
        (((decided c a s).2.ports p).bestForeign.map ForeignClock.dataset) = aBetterTopo then
          .passive
      else .master := by
  rw [← decided_port_state c a s p] at heard
  unfold bmcStateDecision BeatsBest
  dsimp only
  rw [decided_dds, if_neg high, decided_defaultDs, if_neg]
  · congr
  · rintro ⟨nothing, listening⟩
    exact heard (by simpa using nothing) listening

/-- A port other than the one of the best master is told nothing that changes what the clock goes
by. -/
theorem decision_other (high : ¬s.dds.clockQuality.clockClass ≤ 127) (yields : ¬BeatsBest c a s)
    (other : (decided c a s).2.best.map Best.port ≠ some p) :
    bmcStateDecision c p (decided c a s).2 ≠ .grandMaster ∧
      bmcStateDecision c p (decided c a s).2 ≠ .slave := by
  by_cases heard : ((decided c a s).2.ports p).bestForeign = none → (s.ports p).state ≠ .listening
  · rw [decision_high high heard, if_neg yields, if_neg other]
    split <;> decide
  · obtain ⟨nothing, listening⟩ := Classical.not_imp.mp heard
    have state := not_not.mp listening
    rw [← decided_port_state c a s p] at state
    have still : bmcStateDecision c p (decided c a s).2 = .listening := by
      unfold bmcStateDecision
      dsimp only
      rw [if_pos ⟨by rw [nothing]; rfl, state⟩]
      exact state
    rw [still]
    decide

/-- A clock of a class above 127 that is not better than the best master tells one port to follow
it, and goes by what it announces. -/
theorem outcome_slave (addressed : Addressed s) (high : ¬s.dds.clockQuality.clockClass ≤ 127)
    (yields : ¬BeatsBest c a s) {b : Best} (best : (decided c a s).2.best = some b) :
    bmcStateDecision c b.port (decided c a s).2 = .slave ∧
      GoesByDataset b.dataset (handleStateDecisionEvent c a s) := by
  obtain ⟨mine, _, m, _, _, first, described⟩ := decided_best addressed best
  have told : bmcStateDecision c b.port (decided c a s).2 = .slave := by
    rw [decision_high high, if_neg yields, best, Option.map_some, if_pos rfl]
    intro nothing
    have there := decided_pointer addressed best
    rw [nothing] at there
    cases there
  refine ⟨told, ?_⟩
  rw [handleStateDecisionEvent_eq]
  apply recommended_slave ports_nodup ⟨rfl, rfl, fun _ _ => rfl⟩ best first described told
  · intro p member differ
    apply decision_other high yields
    rw [best, Option.map_some]
    exact fun same => differ (Option.some.inj same).symm
  · exact Or.inl mine

/-- A port whose state stays as it is, and does not listen or fail, was in a state that goes with
what it was told. -/
theorem outcome_port (mine : p ∈ c.ports) (plain : c.slaveOnly = false)
    (still : ((handleStateDecisionEvent c a s).ports p).state = (s.ports p).state)
    (heard : (s.ports p).state ≠ .listening) (sound : (s.ports p).state ≠ .faulty) :
    ptpFsm (s.ports p).state (recommendation (bmcStateDecision c p (decided c a s).2))
      (decided c a s).1 = (s.ports p).state := by
  rw [handleStateDecisionEvent_eq] at still
  have alike : Alike c.ports (decided c a s).2 (decided c a s).2 := ⟨rfl, rfl, fun _ _ => rfl⟩
  obtain ⟨u, same, told⟩ := recommended_port (a := a) ports_nodup alike mine (decided c a s).1
  rw [told] at still
  rcases portDispatch_state c a p (recommendation (bmcStateDecision c p (decided c a s).2))
    (decided c a s).1 u with led | ⟨_, faulty | listening⟩
  · rw [led] at still
    have direct := updateOf_direct (still ▸ heard) (still ▸ sound)
    rw [direct] at still
    have machine : c.machine = ptpFsm := by
      unfold Clock.machine
      rw [plain]
      rfl
    dsimp only at still
    rw [machine, same, decided_port_state] at still
    exact still
  · exact absurd (faulty ▸ still).symm sound
  · exact absurd (listening ▸ still).symm heard

end Outcome

end LinuxPtp
