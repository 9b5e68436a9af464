import LinuxPtp.OrdinarySteps
import LinuxPtp.RecordRuns
import LinuxPtp.TrackedMasters

/-!
# What a clock goes by

What a clock takes from others comes from the announces in the records of its ports, which its
ports accepted. The parent data set is either that of a grandmaster, or all of it is taken from one
announce; the stored path is empty or comes from one announce.

What may be stored is a predicate on ports and messages that grows along the run. The data set of
a record is recomputed before it is used, which is why the best record describes its newest
announce even when older ones have gone.
-/

namespace LinuxPtp

/-! ## Stored announces -/

section StoresOnly

variable {c : Clock} {a : Answers} {g : Guards} {s t : ClockState} {p : Nat}
  {allows more : Nat → PtpMessage → Prop}

/-- Every announce in the records of a port is one of those that are allowed there. -/
def StoresOnly (allows : Nat → PtpMessage → Prop) (s : ClockState) : Prop :=
  ∀ p, ∀ fc ∈ (s.ports p).foreignMasters, ∀ m ∈ fc.messages, allows p m.msg

/-- What may be stored in a run may be stored in each longer one. -/
theorem StoresOnly.mono (stores : StoresOnly allows s) (wider : ∀ p m, allows p m → more p m) :
    StoresOnly more s := fun p fc listed m member => wider p m.msg (stores p fc listed m member)

/-- Records that are left or given up. -/
theorem StoresOnly.of_ports (stores : StoresOnly allows s)
    (same : ∀ q, (t.ports q).foreignMasters = (s.ports q).foreignMasters ∨
      (t.ports q).foreignMasters = []) : StoresOnly allows t := by
  intro q fc listed
  rcases same q with kept | gone
  · exact stores q fc (kept ▸ listed)
  · rw [gone] at listed
    cases listed

/-- What comes from records that hold nothing but allowed announces does so, too. -/
theorem Comes.allowed {before : List ForeignClock} {arrived : Option Stored} {fc : ForeignClock}
    (comes : Comes before arrived fc)
    (earlier : ∀ old ∈ before, ∀ m ∈ old.messages, allows p m.msg)
    (new : ∀ m, arrived = some m → allows p m.msg) : ∀ m ∈ fc.messages, allows p m.msg := by
  intro m member
  cases comes with
  | blank empty =>
    rw [empty] at member
    cases member
  | kept old listed part => exact earlier old listed m (part.subset member)
  | grown old listed now latest given grows =>
    rw [grows] at member
    rcases List.mem_cons.mp member with rfl | older
    · exact new m given
    · exact earlier old listed m ((fresh_part now old).subset older)

/-- Only the records of one port are concerned. -/
theorem StoresOnly.update (stores : StoresOnly allows s) (arrived : Option Stored)
    (comes : ∀ fc ∈ (t.ports p).foreignMasters, Comes (s.ports p).foreignMasters arrived fc)
    (others : ∀ q, q ≠ p → t.ports q = s.ports q)
    (new : ∀ m, arrived = some m → allows p m.msg) : StoresOnly allows t := by
  intro q fc listed
  by_cases here : q = p
  · subst here
    exact (comes fc listed).allowed (stores q) new
  · rw [others q here] at listed
    exact stores q fc listed

/-- An announce goes into a record only if it is heeded: fewer than 255 steps. -/
theorem StoresOnly.processAnnounce (stores : StoresOnly allows s) (m : Stored)
    (new : m.msg.announce.stepsRemoved < 255 → allows p m.msg) :
    StoresOnly allows (processAnnounce c a p m s).2 := by
  by_cases near : m.msg.announce.stepsRemoved < 255
  · obtain ⟨_, _, _, _, _, _, _, _, _, same⟩ := announced_processAnnounce (c := c) (a := a) (s := s)
      (p := p) m
    refine stores.update (some m) (processAnnounce_comes m) ?_ ?_
    · intro q differ
      rw [same]
      exact Function.update_of_ne differ ..
    · intro latest given
      cases given
      exact new near
  · rw [processAnnounce_eq, acceptsAnnounce, if_neg (by simp [near])]
    exact stores

/-- Announces are given up. -/
theorem StoresOnly.clearBest (stores : StoresOnly allows s) : StoresOnly allows (clearBest p s) := by
  refine stores.update none clearBest_comes ?_ ?_
  · intro q differ
    obtain ⟨_, _, same⟩ := clearBest_state p s
    rw [same]
    exact Function.update_of_ne differ ..
  · intro m given
    cases given

/-- One effect, of which only an announce stores anything. -/
theorem Effect.stores (effect : Effect c a g s t) (stores : StoresOnly allows s)
    (delivers : ∀ m, g.delivers m → m.type = .announce → m.announce.stepsRemoved < 255 →
      allows g.here m) : StoresOnly allows t := by
  rcases effect.kinds with ⟨m, _, received, type, _, rfl⟩ | rfl | quiet
  · exact stores.processAnnounce m (delivers m.msg received type)
  · exact stores.clearBest
  · apply stores.of_ports
    intro q
    rcases quiet.foreign q with ⟨same, _⟩ | ⟨_, given, _⟩
    · exact Or.inl same
    · exact Or.inr given

/-- The choice of the best master gives old announces up. -/
theorem StoresOnly.electFrom (stores : StoresOnly allows s) (list : List Nat) (best : Option Best) :
    StoresOnly allows (electFrom c a list best s).2 := by
  induction list generalizing best s with
  | nil => exact stores
  | cons p rest inductionHypothesis =>
    rw [electFrom_cons]
    apply inductionHypothesis
    refine stores.update none portComputeBest_comes ?_ ?_
    · exact fun q differ => portComputeBest_other c a differ s
    · intro m given
      cases given

end StoresOnly

/-! ## The best master and its announce -/

section Agreement

variable {c : Clock} {a : Answers} {s t : ClockState} {p : Nat}

/-- The data set of a record is what its newest announce says. -/
def Described (c : Clock) (p : Nat) (fc : ForeignClock) : Prop :=
  ∀ m, fc.messages.head? = some m → fc.dataset = announceToDataset c p m.msg

/-- Pruning leaves the newest announce or none. -/
theorem pruned_head {now : Int} {fc : ForeignClock} {m : Stored}
    (first : (fc.pruned now).messages.head? = some m) : fc.messages.head? = some m := by
  obtain ⟨rest, split⟩ := fresh_part now fc
  have kept : (fc.fresh now).head? = some m := first
  rw [← split, List.head?_append_of_ne_nil]
  · exact kept
  · rintro empty
    rw [empty] at kept
    cases kept

/-- A record that was looked at describes its latest announce. -/
theorem considerForeign_described (best : Option ForeignClock) (fc : ForeignClock) :
    Described c p (considerForeign c a p best fc s).2.1 := by
  unfold considerForeign
  cases newest : fc.messages.head? with
  | none =>
    intro m first
    rw [newest] at first
    cases first
  | some tmp =>
    have record := fcPrune_record (a.pruned fc.id)
      (fc.withDataset (announceToDataset c p tmp.msg)) s
    have described : Described c p (fcPrune (a.pruned fc.id)
        (fc.withDataset (announceToDataset c p tmp.msg)) s).1 := by
      intro m first
      rw [record] at first ⊢
      have same : fc.messages.head? = some m := pruned_head first
      rw [newest] at same
      cases same
      rfl
    dsimp only [ForeignClock.withDataset] at described ⊢
    split
    · exact described
    · cases best with
      | none => exact described
      | some top =>
        dsimp only
        split
        · exact described
        · intro m first
          rw [fcClear_record] at first
          cases first

/-- So all records do once all were looked at. -/
theorem considerAll_described (best : Option ForeignClock) (list : List ForeignClock) :
    ∀ fc ∈ (considerAll c a p best list s).2.1, Described c p fc := by
  induction list generalizing best s with
  | nil => exact fun fc member => absurd member List.not_mem_nil
  | cons old rest inductionHypothesis =>
    intro fc member
    rcases List.mem_cons.mp member with rfl | later
    · exact considerForeign_described best old
    · exact inductionHypothesis _ fc later

/-- The best record stays as it is in the list. -/
theorem considerForeign_winner {best : Option ForeignClock} {old fc : ForeignClock}
    (found : (considerForeign c a p best old s).1 = some fc) :
    best = some fc ∨ (considerForeign c a p best old s).2.1 = fc := by
  unfold considerForeign at found ⊢
  split at found
  · exact Or.inl found
  next tmp newest =>
    dsimp only at found ⊢
    split at found
    next few => exact Or.inl found
    next enough =>
      rw [if_neg enough]
      cases best with
      | none => exact Or.inr (Option.some.inj found)
      | some top =>
        dsimp only at found ⊢
        split at found
        next better =>
          rw [if_pos better]
          exact Or.inr (Option.some.inj found)
        next worse => exact Or.inl found

/-- The winner is one of the records that were looked at. -/
theorem considerAll_winner {best : Option ForeignClock} {list : List ForeignClock}
    {fc : ForeignClock} (found : (considerAll c a p best list s).1 = some fc) :
    best = some fc ∨ fc ∈ (considerAll c a p best list s).2.1 := by
  induction list generalizing best s with
  | nil => exact Or.inl found
  | cons old rest inductionHypothesis =>
    rcases inductionHypothesis found with kept | later
    · rcases considerForeign_winner kept with before | rfl
      · exact Or.inl before
      · exact Or.inr List.mem_cons_self
    · exact Or.inr (List.mem_cons_of_mem _ later)

/-- The data set of the best master of the clock is what its first announce says, if it has one. -/
def Agreed (c : Clock) (best : Best) (s : ClockState) : Prop :=
  ∀ m, firstOfBest best s = some m → best.dataset = announceToDataset c best.port m.msg

/-- Records that stay or are given up leave nothing that disagrees. -/
theorem Agreed.of_records {best : Best} (agreed : Agreed c best s)
    (same : (t.ports best.port).foreignMasters = (s.ports best.port).foreignMasters ∨
      (t.ports best.port).foreignMasters = []) : Agreed c best t := by
  intro m first
  unfold firstOfBest at first
  rcases same with kept | gone
  · rw [kept] at first
    exact agreed m first
  · rw [gone] at first
    cases first

/-- The record with the address of a record in the list is that record. -/
theorem find_listed {list : List ForeignClock} {fc : ForeignClock}
    (distinct : (list.map ForeignClock.id).Nodup) (listed : fc ∈ list) :
    list.find? (fun other => other.id = fc.id) = some fc := by
  cases found : list.find? (fun other => other.id = fc.id) with
  | none =>
    rw [List.find?_eq_none] at found
    exact absurd (decide_eq_true rfl) (found fc listed)
  | some other =>
    have same : other.id = fc.id := by simpa using List.find?_some found
    exact congrArg some (List.inj_on_of_nodup_map distinct (List.mem_of_find?_eq_some found) listed
      same)

/-- The best record of a port is chosen with the data set that its newest announce describes. -/
theorem portComputeBest_agreed {fc : ForeignClock} (distinct : (s.ports p).addresses.Nodup)
    (found : (portComputeBest c a p s).1 = some fc) :
    Agreed c (bestOf p fc) (portComputeBest c a p s).2 := by
  have listed := portComputeBest_addresses (c := c) (a := a) p p s
  unfold portComputeBest at found listed ⊢
  split at found
  · cases found
  next slave =>
    rw [if_neg slave] at listed
    rw [if_neg slave]
    dsimp only at found listed ⊢
    rw [withPort_same] at listed
    rcases considerAll_winner found with impossible | member
    · cases impossible
    · intro m first
      unfold firstOfBest bestOf at first
      dsimp only at first
      rw [withPort_same] at first
      dsimp only at first
      rw [find_listed _ member] at first
      · exact considerAll_described none _ fc member m first
      · have addresses : List.map ForeignClock.id (considerAll c a p none
            (s.ports p).foreignMasters s).2.1 = (s.ports p).addresses := listed
        rw [addresses]
        exact distinct

/-- The best master that is elected agrees with its announce. -/
theorem electFrom_agreed {list : List Nat} (once : list.Nodup) {best : Option Best} {b : Best}
    (distinct : ∀ q, (s.ports q).addresses.Nodup)
    (before : ∀ b, best = some b → b.port ∉ list ∧ Agreed c b s)
    (elected : (electFrom c a list best s).1 = some b) :
    Agreed c b (electFrom c a list best s).2 := by
  induction list generalizing best s with
  | nil => exact (before b elected).2
  | cons p rest inductionHypothesis =>
    rw [electFrom_cons] at elected ⊢
    obtain ⟨absent, later⟩ := List.nodup_cons.mp once
    refine inductionHypothesis later ?_ ?_ elected
    · intro q
      rw [portComputeBest_addresses]
      exact distinct q
    · intro b kept
      rcases keepBest_cases kept with earlier | ⟨fc, found, rfl⟩
      · obtain ⟨elsewhere, agreed⟩ := before b earlier
        obtain ⟨differ, other⟩ := List.ne_and_not_mem_of_not_mem_cons elsewhere
        refine ⟨other, agreed.of_records (Or.inl ?_)⟩
        rw [portComputeBest_other c a differ]
      · exact ⟨absent, portComputeBest_agreed (distinct p) found⟩

end Agreement

/-! ## The parent -/

/-- The parent data set is that of a grandmaster with the supplied default data set. -/
def IsGrandmaster (c : Clock) (dds : DefaultDataSet) (s : ClockState) : Prop :=
  s.stepsRemoved = 0 ∧ s.parent =
    { parentPortIdentity := ⟨c.clockIdentity, 0⟩
      grandmasterIdentity := c.clockIdentity
      grandmasterClockQuality := dds.clockQuality
      grandmasterPriority1 := dds.priority1
      grandmasterPriority2 := dds.priority2 }

/-- The parent data set is what an announce says. -/
def GoesBy (m : PtpMessage) (s : ClockState) : Prop :=
  s.stepsRemoved = 1 + m.announce.stepsRemoved ∧ s.parent =
    { parentPortIdentity := m.sourcePortIdentity
      grandmasterIdentity := m.announce.grandmasterIdentity
      grandmasterClockQuality := m.announce.grandmasterClockQuality
      grandmasterPriority1 := m.announce.grandmasterPriority1
      grandmasterPriority2 := m.announce.grandmasterPriority2 }

/-- The parent data set comes from an announce that is allowed, or from a default data set that the
clock had. -/
def Parented (c : Clock) (allows : Nat → PtpMessage → Prop) (own : DefaultDataSet → Prop)
    (s : ClockState) : Prop :=
  (∃ dds, own dds ∧ IsGrandmaster c dds s) ∨ ∃ p m, allows p m ∧ GoesBy m s

/-- What a clock goes by comes from announces that are allowed and from itself. -/
structure Grounded (c : Clock) (allows : Nat → PtpMessage → Prop) (own : DefaultDataSet → Prop)
    (s : ClockState) : Prop where
  addressed : Addressed s
  stores : StoresOnly allows s
  parent : Parented c allows own s
  path : s.path = [] ∨
    ∃ p m, allows p m ∧ (c.setup p).pathTraceEnabled ∧ s.path = m.suffix.cid

/-- The same in the middle of a state decision. -/
structure Deciding (c : Clock) (allows : Nat → PtpMessage → Prop) (own : DefaultDataSet → Prop)
    (s : ClockState) : Prop extends Grounded c allows own s where
  dds : own s.dds
  agreed : ∀ best, s.best = some best → Agreed c best s

section Grounds

variable {c : Clock} {a : Answers} {s t : ClockState} {p : Nat}
  {allows more : Nat → PtpMessage → Prop} {own former : DefaultDataSet → Prop}

/-- The parent is the same. -/
theorem Parented.congr (parented : Parented c allows own s) (parent : t.parent = s.parent)
    (stepsRemoved : t.stepsRemoved = s.stepsRemoved) : Parented c allows own t := by
  unfold Parented IsGrandmaster GoesBy at parented ⊢
  rw [parent, stepsRemoved]
  exact parented

/-- What a run vouches for each longer one does. -/
theorem Grounded.mono (grounded : Grounded c allows own s)
    (wider : ∀ p m, allows p m → more p m) (longer : ∀ dds, own dds → former dds) :
    Grounded c more former s where
  addressed := grounded.addressed
  stores := grounded.stores.mono wider
  parent := by
    rcases grounded.parent with ⟨dds, had, leads⟩ | ⟨p, m, allowed, follows⟩
    · exact Or.inl ⟨dds, longer dds had, leads⟩
    · exact Or.inr ⟨p, m, wider p m allowed, follows⟩
  path := by
    rcases grounded.path with empty | ⟨p, m, allowed, traced⟩
    · exact Or.inl empty
    · exact Or.inr ⟨p, m, wider p m allowed, traced⟩

/-- What the clock goes by stays, and its records stay or are given up. -/
theorem Grounded.congr (grounded : Grounded c allows own s) (addressed : Addressed t)
    (stores : StoresOnly allows t) (parent : t.parent = s.parent)
    (stepsRemoved : t.stepsRemoved = s.stepsRemoved) (path : t.path = s.path) :
    Grounded c allows own t :=
  ⟨addressed, stores, grounded.parent.congr parent stepsRemoved, path ▸ grounded.path⟩

/-- Only fault timers and the like are concerned. -/
theorem Grounded.of_ports (grounded : Grounded c allows own s)
    (same : ∀ q, (t.ports q).foreignMasters = (s.ports q).foreignMasters)
    (rest : ∃ ports sde, t = { s with ports := ports, sde := sde }) : Grounded c allows own t := by
  obtain ⟨_, _, state⟩ := rest
  apply grounded.congr
  · apply grounded.addressed.congr
    · intro q
      unfold Port.addresses
      rw [same]
    · rw [state]
  · exact grounded.stores.of_ports fun q => Or.inl (same q)
  all_goals rw [state]

/-- A fault timer is set. -/
theorem Grounded.armFault (grounded : Grounded c allows own s) (p : Nat) :
    Grounded c allows own (armFault c p s) := by
  refine grounded.of_ports (fun q => ?_) ⟨_, s.sde, rfl⟩
  obtain ⟨_, same⟩ := armFault_port (c := c) p q s
  rw [same]

/-- A fault timer is stopped. -/
theorem Grounded.disarmFault (grounded : Grounded c allows own s) (p : Nat) :
    Grounded c allows own (disarmFault p s) := by
  refine grounded.of_ports (fun q => ?_) ⟨_, s.sde, rfl⟩
  obtain ⟨_, same⟩ := disarmFault_port p q s
  rw [same]

/-! ### Outside of decisions -/

/-- A record does not touch the path of the clock. -/
theorem addForeignMaster_path (m : Stored) : (addForeignMaster a p m s).2.path = s.path := by
  unfold addForeignMaster
  split
  · rfl
  next fc _ =>
    obtain ⟨_, same⟩ := fcPrune_state (a.pruned fc.id) fc s
    unfold fcInsert
    dsimp only
    rw [same]
    rfl

/-- An announce leaves the path, or all of it is replaced where paths are traced. -/
theorem updateCurrentMaster_path (m : Stored) :
    (updateCurrentMaster c a p m s).2.path = s.path ∨
      (c.setup p).pathTraceEnabled ∧ (updateCurrentMaster c a p m s).2.path = m.msg.suffix.cid := by
  unfold updateCurrentMaster
  split
  · exact Or.inl rfl
  next fc _ =>
    split
    · exact Or.inl (addForeignMaster_path m)
    · dsimp only
      generalize began : setTmo p .announceTimer _ = t
      have kept : ∀ fc', (((fcInsert m (fcPrune (a.pruned fc.id) fc t).1
          (fcPrune (a.pruned fc.id) fc t).2).2).withPort p (Port.withForeign fc')).path =
          t.path := by
        intro fc'
        obtain ⟨_, same⟩ := fcPrune_state (a.pruned fc.id) fc t
        unfold fcInsert
        rw [same]
        rfl
      rw [kept, ← began]
      split
      next traced =>
        refine Or.inr ⟨traced, ?_⟩
        split <;> rfl
      next =>
        left
        split <;> rfl

/-- The path is replaced as a whole, by that of an announce of the best master. -/
theorem processAnnounce_path (m : Stored) :
    (processAnnounce c a p m s).2.path = s.path ∨ m.msg.announce.stepsRemoved < 255 ∧
      (c.setup p).pathTraceEnabled ∧ (processAnnounce c a p m s).2.path = m.msg.suffix.cid := by
  rw [processAnnounce_eq]
  split
  next accepts =>
    have near : m.msg.announce.stepsRemoved < 255 := by
      simp only [acceptsAnnounce, Bool.and_eq_true, decide_eq_true_eq] at accepts
      exact accepts.1
    unfold recordAnnounce
    split
    · rcases updateCurrentMaster_path (c := c) (a := a) (s := s) (p := p) m with same | traced
      · exact Or.inl same
      · exact Or.inr ⟨near, traced⟩
    · exact Or.inl (addForeignMaster_path m)
  next => exact Or.inl rfl

/-- One effect of a descriptor: the parent is only changed in a state decision. -/
theorem Effect.grounded {g : Guards} (effect : Effect c a g s t)
    (delivers : ∀ m, g.delivers m → m.type = .announce → m.announce.stepsRemoved < 255 →
      allows g.here m) (grounded : Grounded c allows own s) : Grounded c allows own t := by
  have same := effect.undecided
  constructor
  · exact effect.addressed grounded.addressed
  · exact effect.stores grounded.stores delivers
  · exact grounded.parent.congr same.parent same.stepsRemoved
  · rcases effect.kinds with ⟨m, _, received, type, _, rfl⟩ | rfl | quiet
    · rcases processAnnounce_path (c := c) (a := a) (s := s) (p := g.here) m with kept |
        ⟨near, traced, path⟩
      · rw [kept]
        exact grounded.path
      · exact Or.inr ⟨g.here, m.msg, delivers m.msg received type near, traced, path⟩
    · obtain ⟨_, _, cleared⟩ := clearBest_state g.here s
      rw [cleared]
      exact grounded.path
    · rw [quiet.path]
      exact grounded.path

/-! ### The decision -/

/-- The best master is chosen, and describes an announce that was heard. -/
theorem Grounded.decided (grounded : Grounded c allows own s) (dds : own s.dds) :
    Deciding c allows own (decided c a s).2 := by
  obtain ⟨_, _, _, _, _, _, _, _, state⟩ := decided_state (c := c) (a := a) s
  have stores : StoresOnly allows (LinuxPtp.decided c a s).2 := by
    have elected := grounded.stores.electFrom (c := c) (a := a) c.ports none
    unfold LinuxPtp.decided
    rw [adoptBest_eq]
    exact elected.of_ports fun _ => Or.inl rfl
  have kept : Grounded c allows own (LinuxPtp.decided c a s).2 := by
    apply grounded.congr (decided_addressed s grounded.addressed) stores
    all_goals rw [state]
  refine ⟨kept, ?_, ?_⟩
  · rw [state]
    exact dds
  · intro best elected
    have agreed : Agreed c best (electFrom c a c.ports none s).2 := by
      apply electFrom_agreed ports_nodup grounded.addressed.distinct
      · intro b impossible
        cases impossible
      · unfold LinuxPtp.decided at elected
        rw [adoptBest_eq] at elected
        exact elected
    unfold LinuxPtp.decided
    rw [adoptBest_eq]
    exact agreed

/-- The first announce of the best master is one of those in the records. -/
theorem StoresOnly.firstOfBest (stores : StoresOnly allows s) {best : Best} {m : Stored}
    (first : firstOfBest best s = some m) : allows best.port m.msg := by
  obtain ⟨fc, found, newest⟩ := Option.bind_eq_some_iff.mp first
  exact stores best.port fc (List.mem_of_find?_eq_some found) m (List.mem_of_mem_head? newest)

/-- The clock goes by its own data set or by that of its best master. -/
theorem Deciding.informed (deciding : Deciding c allows own s) (recommended : PortState) :
    Deciding c allows own (informed c recommended s) := by
  have addressed := deciding.addressed
  have stores := deciding.stores
  unfold LinuxPtp.informed
  split
  · exact
      { addressed := ⟨addressed.distinct, addressed.allocated⟩
        stores := stores
        parent := Or.inl ⟨s.dds, deciding.dds, rfl, rfl⟩
        path := Or.inl rfl
        dds := deciding.dds
        agreed := deciding.agreed }
  · unfold clockUpdateSlave
    cases elected : s.best with
    | none => exact deciding
    | some best =>
      dsimp only
      cases first : firstOfBest best s with
      | none =>
        exact
          { addressed := ⟨addressed.distinct, addressed.allocated⟩
            stores := stores
            parent := deciding.parent
            path := deciding.path
            dds := deciding.dds
            agreed := deciding.agreed }
      | some m =>
        have agreed := deciding.agreed best elected m first
        have follows : GoesBy m.msg (follow best m.msg (s.note (.took best.port (some m)))) := by
          unfold GoesBy follow
          dsimp only
          rw [agreed]
          exact ⟨rfl, rfl⟩
        exact
          { addressed := ⟨addressed.distinct, addressed.allocated⟩
            stores := stores
            parent := Or.inr ⟨best.port, m.msg, stores.firstOfBest first, follows⟩
            path := deciding.path
            dds := deciding.dds
            agreed := deciding.agreed }
  · exact deciding

/-- A port is told what to do, which does not change the parent any more. -/
theorem Deciding.dispatch (deciding : Deciding c allows own s) {event : FsmEvent} {mdiff : Bool} :
    Deciding c allows own (portDispatch c a p event mdiff s) := by
  have touches := portDispatch_touches c a p event mdiff s
  obtain ⟨_, _, _, _, _, state⟩ := touches.frame
  have records : ∀ q, ((portDispatch c a p event mdiff s).ports q).foreignMasters =
      (s.ports q).foreignMasters ∨
        ((portDispatch c a p event mdiff s).ports q).foreignMasters = [] := by
    intro q
    by_cases here : q = p
    · subst here
      exact touches.foreign.imp And.left And.left
    · rw [portDispatch_elsewhere here]
      exact Or.inl rfl
  have addressed : Addressed (portDispatch c a p event mdiff s) := by
    constructor
    · intro q
      unfold Port.addresses
      rcases records q with kept | gone
      · rw [kept]
        exact deciding.addressed.distinct q
      · rw [gone]
        exact List.nodup_nil
    · intro q id listed
      unfold Port.addresses at listed
      have next : (portDispatch c a p event mdiff s).nextForeign = s.nextForeign := by rw [state]
      rw [next]
      rcases records q with kept | gone
      · rw [kept] at listed
        exact deciding.addressed.allocated q id listed
      · rw [gone] at listed
        cases listed
  refine ⟨?_, ?_, ?_⟩
  · apply deciding.toGrounded.congr addressed (deciding.stores.of_ports records)
    all_goals rw [state]
  · rw [state]
    exact deciding.dds
  · intro best elected
    have before : s.best = some best := by
      rw [state] at elected
      exact elected
    exact (deciding.agreed best before).of_records (records best.port)

/-- A state decision: the choice, and what each port is told. -/
theorem Grounded.handleDecision (grounded : Grounded c allows own s) (dds : own s.dds) :
    Grounded c allows own (handleDecision c a s) := by
  unfold LinuxPtp.handleDecision
  split
  · have walk : ∀ (list : List Nat) (t : ClockState), Deciding c allows own t →
        Deciding c allows own (list.foldl (recommend c a (LinuxPtp.decided c a s).1) t) := by
      intro list
      induction list with
      | nil => exact fun _ deciding => deciding
      | cons p rest inductionHypothesis =>
        intro t deciding
        apply inductionHypothesis
        rw [recommend_eq]
        exact (deciding.informed _).dispatch
    have done := walk c.ports _ (grounded.decided (a := a) dds)
    rw [← handleStateDecisionEvent_eq] at done
    exact done.toGrounded.of_ports (fun _ => rfl) ⟨_, _, rfl⟩
  · exact grounded

/-! ### Steps and starts -/

/-- A step keeps a clock to announces that are allowed, if those are that it accepts. -/
theorem pollStep_grounded {s : PollState} {step : PollStep}
    (hears : ∀ a, step.answers = some a → ∀ p m, a.received = .message m → Heeded c p m →
      m.type = .announce → m.announce.stepsRemoved < 255 → allows p m)
    (dds : own s.clock.dds) (grounded : Grounded c allows own s.clock) :
    Grounded c allows own (pollStep c s step).clock := by
  by_cases decision : ∃ a, step = .decide a
  · obtain ⟨a, rfl⟩ := decision
    exact grounded.handleDecision dds
  · apply pollStep_undecided (Grounded c allows own) (fun a same => decision ⟨a, same⟩) _ _ _
      grounded
    · intro a answers p before s t effect grounded
      apply effect.grounded _ grounded
      intro m delivered
      exact hears a answers p m delivered.1 delivered.2
    · exact fun p s grounded => grounded.armFault p
    · exact fun p s grounded => grounded.disarmFault p

/-- The ports are initialised. -/
theorem clockStart_grounded (grounded : Grounded c allows own s) :
    Grounded c allows own (clockStart c a s) := by
  unfold clockStart
  generalize c.ports ++ [0] = list
  induction list generalizing s with
  | nil => exact grounded
  | cons p rest inductionHypothesis =>
    apply inductionHypothesis
    have work : Works c a { Guards.free s p with delivers := fun _ => False } s
        (portDispatch c a p .initializeEvent false s) :=
      portDispatch_works _ _ _ _ _ _ nofun (fun _ => trivial) nofun (fun _ _ _ => trivial)
    exact work.effects.keeps grounded fun _ _ effect => effect.grounded fun _ impossible =>
      impossible.elim

/-- At the start the clock goes by itself. -/
theorem grounded_start (start : StartUp) (dds : own start.dds) :
    Grounded c allows own (start.state c).clock := by
  apply clockStart_grounded
  exact
    { addressed := ⟨fun _ => List.nodup_nil, fun _ _ member => absurd member List.not_mem_nil⟩
      stores := fun _ _ member => absurd member List.not_mem_nil
      parent := Or.inl ⟨start.dds, dds, rfl, rfl⟩
      path := Or.inl rfl }

end Grounds

/-! ## Runs -/

section Runs

variable {c : Clock} {start : StartUp} {events : List PollStep}

/-- An announce was received in one of the steps, and the port does not ignore it. -/
structure Heard (c : Clock) (events : List PollStep) (p : Nat) (m : PtpMessage) : Prop where
  received : ∃ step ∈ events, ∃ a, step.answers = some a ∧ a.received = .message m
  heeded : Heeded c p m
  type : m.type = .announce
  near : m.announce.stepsRemoved < 255

/-- The clock had a default data set at some moment. -/
def Had (c : Clock) (start : StartUp) (events : List PollStep) (dds : DefaultDataSet) : Prop :=
  ∃ moment, moment <+: events ∧ dds = (moment.foldl (pollStep c) (start.state c)).clock.dds

/-- What was heard in a run was heard in each longer one. -/
theorem Heard.mono {more : List PollStep} {p : Nat} {m : PtpMessage} (heard : Heard c events p m)
    (wider : events ⊆ more) : Heard c more p m := by
  obtain ⟨step, member, came⟩ := heard.received
  exact ⟨⟨step, wider member, came⟩, heard.heeded, heard.type, heard.near⟩

/-- At the start the default data set is the configured one. -/
theorem start_dds (c : Clock) (start : StartUp) : (start.state c).clock.dds = start.dds := by
  obtain ⟨_, _, _, _, _, same⟩ := clockStart_frame (c := c) (a := start.answers)
    (clockOpen c start.dds start.utcOffset start.timeSource start.realtime)
  unfold StartUp.state
  dsimp only
  rw [same]
  rfl

/-- After every run, by induction on it. -/
theorem grounded_run (c : Clock) (start : StartUp) (events : List PollStep) :
    Grounded c (Heard c events) (Had c start events)
      (events.foldl (pollStep c) (start.state c)).clock := by
  induction events using List.reverseRecOn with
  | nil => exact grounded_start start ⟨[], List.prefix_refl _, (start_dds c start).symm⟩
  | append_singleton events step inductionHypothesis =>
    have longer : events <+: events ++ [step] := List.prefix_append ..
    rw [List.foldl_append, List.foldl_cons, List.foldl_nil]
    apply pollStep_grounded
    · intro a answers p m received heeded type near
      exact ⟨⟨step, by simp, a, answers, received⟩, heeded, type, near⟩
    · exact ⟨events, longer, rfl⟩
    · apply inductionHypothesis.mono
      · exact fun p m heard => heard.mono longer.subset
      · exact fun dds ⟨moment, early, had⟩ => ⟨moment, early.trans longer, had⟩

/-- What is heard is not from the clock itself: its own announces are ignored. -/
theorem Heard.foreign {p : Nat} {m : PtpMessage} (heard : Heard c events p m) :
    m.sourcePortIdentity.clockIdentity ≠ c.clockIdentity := by
  have heeded := heard.heeded.not_ignored
  simp only [tcIgnore, Bool.or_eq_false_iff, decide_eq_false_iff_not] at heeded
  exact heeded.2

/-- One step more than what is heard does not wrap around. -/
theorem Heard.steps {p : Nat} {m : PtpMessage} (heard : Heard c events p m) :
    (1 + m.announce.stepsRemoved).toNat = m.announce.stepsRemoved.toNat + 1 := by
  have near := UInt16.lt_iff_toNat_lt.mp heard.near
  rw [UInt16.toNat_add]
  simp only [UInt16.reduceToNat] at near ⊢
  omega

/-- In every run the announces in the records of a port were received and are none that the port
ignores. The parent data set is that of a grandmaster with a default data set that the clock had,
or it is one of these announces, of another clock and one step nearer to the grandmaster.

Proof: records are written from accepted announces alone, and the data set of a record describes its
newest one. A state decision takes the parent from the best record or from the default data set, and
nothing else writes it. -/
theorem parent_heard (c : Clock) (start : StartUp) (events : List PollStep) :
    let s := (events.foldl (pollStep c) (start.state c)).clock
    StoresOnly (Heard c events) s ∧
      ((∃ dds, Had c start events dds ∧ IsGrandmaster c dds s) ∨
        ∃ p m, Heard c events p m ∧ GoesBy m s ∧
          s.parent.parentPortIdentity.clockIdentity ≠ c.clockIdentity ∧
          s.stepsRemoved.toNat = m.announce.stepsRemoved.toNat + 1) := by
  have grounded := grounded_run c start events
  refine ⟨grounded.stores, grounded.parent.imp id ?_⟩
  rintro ⟨p, m, heard, goesBy⟩
  obtain ⟨steps, parent⟩ := goesBy
  refine ⟨p, m, heard, ⟨steps, parent⟩, ?_, ?_⟩
  · rw [parent]
    exact heard.foreign
  · rw [steps]
    exact heard.steps

end Runs

end LinuxPtp
