import LinuxPtp.SlavePorts
import LinuxPtp.StateDecision
import Mathlib.Data.Fintype.Card
import Mathlib.Data.Set.Finite.Lemmas

/-!
# A network that has settled

A network of clocks has settled if the records of every port are the announces that the ports in
charge of its segment send now, and no state decision would change anything. Then all clocks that
are connected go by the best one among them, and the parents lead to it without a loop.

Clocks are compared by their merits, which are the lists of what `dscmp` looks at. Nothing is
assumed of how the network came to be settled, or that it ever does.
-/

namespace LinuxPtp

open Election

/-! ## Merits -/

/-- What decides between data sets of different grandmasters, the smallest being the best. -/
def Dataset.merit (a : Dataset) : List Nat :=
  a.priority1.toNat :: a.quality.clockClass.toNat :: a.quality.clockAccuracy.toNat ::
    a.quality.offsetScaledLogVariance.toNat :: a.priority2.toNat ::
    a.identity.toList.map UInt8.toNat

section Merits

variable {order : Octets.ByteOrder} {a b : Dataset}

/-- For clocks that are told apart, the better data set is the one of less merit. -/
theorem merit_lt_of_dscmpBoth (differ : a.identity ≠ b.identity) :
    0 < dscmpBoth order a b ↔ a.merit < b.merit := by
  have apart := mt identity_memcmp_eq_zero.mp differ
  have sizes : a.identity.toList.length = b.identity.toList.length := by simp
  have last : 0 < (if memcmp a.identity.toList b.identity.toList < 0 then aBetter else bBetter) ↔
      memcmp a.identity.toList b.identity.toList < 0 := by
    unfold aBetter bBetter
    split_ifs <;> simp [*]
  unfold Dataset.merit
  simp only [List.cons_lt_cons_iff, ← memcmp_neg sizes]
  simp only [dscmpBoth, apart, if_false, gt_iff_lt, UInt8.lt_iff_toNat_lt, UInt16.lt_iff_toNat_lt,
    graded_pos, last]

/-- Data sets of the same merit name the same clock. -/
theorem merit_inj (same : a.merit = b.merit) : a.identity = b.identity := by
  simp only [Dataset.merit, List.cons.injEq] at same
  have identities := same.2.2.2.2.2
  rw [List.map_inj_right fun _ _ => UInt8.toNat_inj.mp] at identities
  exact Vector.toList_inj.mp identities

/-- A data set that ranks first is of least merit, since the rank begins with the merit. -/
theorem merit_of_rank (least : a.rank order ≤ b.rank order) : a.merit ≤ b.merit := by
  have whole : ∀ d : Dataset, d.rank order = d.merit ++ d.route order := fun _ => rfl
  by_contra worse
  rw [not_le] at worse
  have size : b.merit.length = a.merit.length := by simp [Dataset.merit]
  have better : b.merit ++ b.route order < a.merit ++ a.route order :=
    (append_lt size).mpr (Or.inl worse)
  rw [← whole, ← whole] at better
  exact absurd least (not_le.mpr better)

/-- A comparison that ends as better by topology has not been decided before. -/
theorem graded_topo {x y : Prop} [Decidable x] [Decidable y] {rest : Int}
    (topo : (if x then aBetter else if y then bBetter else rest) = aBetterTopo) :
    rest = aBetterTopo := by
  split at topo
  · cases topo
  · split at topo
    · cases topo
    · exact topo

/-- Only data sets of one grandmaster are told apart by topology. -/
theorem identity_of_topo (topo : dscmpBoth order a b = aBetterTopo) : a.identity = b.identity := by
  by_contra differ
  have apart := mt identity_memcmp_eq_zero.mp differ
  unfold dscmpBoth at topo
  dsimp only at topo
  rw [if_neg apart] at topo
  have last := graded_topo (graded_topo (graded_topo (graded_topo (graded_topo topo))))
  split at last <;> cases last

/-- A clock is better than itself from afar. -/
theorem dscmpBoth_own (same : a.identity = b.identity) (here : a.stepsRemoved.toNat = 0)
    (away : 0 < b.stepsRemoved.toNat) (apart : b.receiver ≠ b.sender) :
    0 < dscmpBoth order a b := by
  have sides := mt (PortIdentity.memcmp_eq_zero order).mp apart
  have topology : dscmpBoth order a b = dscmp2 order a b :=
    if_pos (identity_memcmp_eq_zero.mpr same)
  rw [topology]
  unfold dscmp2
  dsimp only
  rw [here]
  by_cases far : 0 + 1 < b.stepsRemoved.toNat
  · rw [if_pos far]
    decide
  · rw [if_neg far, if_neg (Nat.not_lt_zero _), if_pos away]
    split
    · decide
    · split
      · decide
      · omega

end Merits

/-! ## The best master of all ports -/

section Least

variable {c : Clock} {a : Answers} {s : ClockState}

/-- Foreign masters that the ports of a clock can compare. -/
structure Comparable (c : Clock) (a : Answers) (s : ClockState) : Prop where
  plain : c.telecom = false
  apart : ∀ p ∈ c.ports, ∀ fc ∈ candidates c a p (s.ports p),
    fc.dataset.receiver ≠ fc.dataset.sender
  described : ∀ p ∈ c.ports, ∀ fc ∈ candidates c a p (s.ports p),
    ∀ q ∈ c.ports, ∀ other ∈ candidates c a q (s.ports q), fc.dataset.Describes other.dataset

/-- Of contenders, the comparison of the code is that of the ranks. -/
theorem Comparable.agrees (comparable : Comparable c a s) {first second : Best}
    (one : first ∈ (contenders c a c.ports s).flatten)
    (two : second ∈ (contenders c a c.ports s).flatten) :
    0 < c.compareBest first second ↔
      first.dataset.rank c.order < second.dataset.rank c.order := by
  obtain ⟨p, listed, fc, member, rfl⟩ := mem_contenders.mp one
  obtain ⟨q, also, other, found, rfl⟩ := mem_contenders.mp two
  have agrees := dscmpBoth_pos c.order (comparable.apart p listed fc member)
    (comparable.apart q also other found)
    (comparable.described p listed fc member q also other found)
  simpa [Clock.compareBest, Clock.dscmp, comparable.plain, dscmp, comparePointers, bestOf]
    using agrees

/-- No candidate has a smaller rank than the best master. -/
theorem decided_least (comparable : Comparable c a s) {b : Best}
    (selected : (decided c a s).2.best = some b) {p : Nat} (mine : p ∈ c.ports)
    {fc : ForeignClock} (candidate : fc ∈ candidates c a p (s.ports p)) :
    b.dataset.rank c.order ≤ fc.dataset.rank c.order := by
  unfold decided at selected
  rw [adoptBest_eq] at selected
  have elected : (electBest c a c.ports s).1 = some b := selected
  rw [electBest_elect c a ports_nodup] at elected
  have within : ∀ best ∈ (contenders c a c.ports s).filterMap (elect c.compareBest),
      best ∈ (contenders c a c.ports s).flatten := by
    intro best member
    obtain ⟨group, listed, won⟩ := List.mem_filterMap.mp member
    exact List.mem_flatten.mpr ⟨group, listed, elect_mem won⟩
  have here : (candidates c a p (s.ports p)).map (bestOf p) ∈ contenders c a c.ports s :=
    List.mem_map_of_mem mine
  have stands : bestOf p fc ∈ (candidates c a p (s.ports p)).map (bestOf p) :=
    List.mem_map_of_mem candidate
  cases won : elect c.compareBest ((candidates c a p (s.ports p)).map (bestOf p)) with
  | none =>
    rw [elect_none.mp won] at stands
    cases stands
  | some winner =>
    have first := elect_least (fun best : Best => best.dataset.rank c.order)
      (fun x one y two => comparable.agrees (List.mem_flatten.mpr ⟨_, here, one⟩)
        (List.mem_flatten.mpr ⟨_, here, two⟩)) won _ stands
    have second := elect_least (fun best : Best => best.dataset.rank c.order)
      (fun x one y two => comparable.agrees (within x one) (within y two)) elected winner
      (List.mem_filterMap.mpr ⟨_, here, won⟩)
    exact second.trans first

/-- A clock with a candidate has a best master. -/
theorem decided_some {p : Nat} (mine : p ∈ c.ports) {fc : ForeignClock}
    (candidate : fc ∈ candidates c a p (s.ports p)) :
    ∃ b, (decided c a s).2.best = some b := by
  unfold decided
  rw [adoptBest_eq]
  dsimp only
  apply Option.ne_none_iff_exists'.mp
  rw [Ne, electBest_none ports_nodup]
  intro empty
  have stands : bestOf p fc ∈ (contenders c a c.ports s).flatten :=
    mem_contenders.mpr ⟨p, mine, fc, candidate, rfl⟩
  rw [empty] at stands
  cases stands

end Least

/-! ## The network -/

/-- A port is in charge of its segment. -/
def PortState.sends : PortState → Bool
  | .master | .grandMaster => true
  | _ => false

section Layout

variable {Node Segment : Type} (clocks : Node → Clock) (segment : Node → Nat → Segment)
  (answers : Node → Answers) (states : Node → ClockState)

/-- Two clocks have a segment in common. -/
def Linked (n m : Node) : Prop :=
  ∃ p ∈ (clocks n).ports, ∃ q ∈ (clocks m).ports, segment n p = segment m q

/-- A port accepts what a port of another clock on its segment announces. -/
structure Hears (n : Node) (p : Nat) (m : Node) (q : Nat) : Prop where
  mine : p ∈ (clocks n).ports
  theirs : q ∈ (clocks m).ports
  shared : segment n p = segment m q
  other : m ≠ n
  sends : ((states m).ports q).state.sends
  near : (states m).stepsRemoved < 255

/-- How a port describes a port that it hears. -/
def heardFrom (n : Node) (p : Nat) (m : Node) (q : Nat) : Dataset :=
  announceToDataset (clocks n) p (announceOf (clocks m) q (states m))

/-- The merit of a clock as a grandmaster. -/
def ownMerit (n : Node) : List Nat := (clockDefaultDs (clocks n) (states n)).merit

/-- A clock goes by another one as its grandmaster. -/
structure Names (h n : Node) : Prop where
  identity : (states n).parent.grandmasterIdentity = (clocks h).clockIdentity
  quality : (states n).parent.grandmasterClockQuality = (states h).dds.clockQuality
  priority1 : (states n).parent.grandmasterPriority1 = (states h).dds.priority1
  priority2 : (states n).parent.grandmasterPriority2 = (states h).dds.priority2

/-- Clocks that are told apart and compare data sets by `dscmp`, each with a port and none of them
bound to be a slave or a master. One of a class up to 127, which never follows a master, is better
than all others. -/
structure Rivals : Prop where
  distinct : ∀ m n, (clocks m).clockIdentity = (clocks n).clockIdentity → m = n
  plain : ∀ n, (clocks n).telecom = false
  free : ∀ n, (clocks n).slaveOnly = false
  present : ∀ n, (clocks n).ports ≠ []
  lowest : ∀ n, (states n).dds.clockQuality.clockClass ≤ 127 → ∀ m, m ≠ n →
    ownMerit clocks states n < ownMerit clocks states m

/-- The network has settled. -/
structure SettledNetwork : Prop extends Rivals clocks states where
  addressed : ∀ n, Addressed (states n)
  /-- Every port has come to one of the states that last. -/
  lasting : ∀ n, ∀ p ∈ (clocks n).ports, ((states n).ports p).state.sends ∨
    ((states n).ports p).state = .passive ∨ ((states n).ports p).state.tracks
  /-- The foreign masters that qualify are those that are heard. -/
  told : ∀ n, ∀ p ∈ (clocks n).ports,
    ∀ fc ∈ candidates (clocks n) (answers n) p ((states n).ports p),
      ∃ m q, Hears clocks segment states n p m q ∧ fc.dataset = heardFrom clocks states n p m q
  heard : ∀ n p m q, Hears clocks segment states n p m q →
    ∃ fc ∈ candidates (clocks n) (answers n) p ((states n).ports p),
      fc.dataset = heardFrom clocks states n p m q
  /-- A state decision changes neither a port nor what the clock goes by. -/
  still : ∀ n, ∀ p ∈ (clocks n).ports,
    ((handleStateDecisionEvent (clocks n) (answers n) (states n)).ports p).state =
      ((states n).ports p).state
  parent : ∀ n, (handleStateDecisionEvent (clocks n) (answers n) (states n)).parent =
    (states n).parent
  steps : ∀ n, (handleStateDecisionEvent (clocks n) (answers n) (states n)).stepsRemoved =
    (states n).stepsRemoved

end Layout

/-! ## Ports that stay as they are -/

/-- A port in charge that stays so was told to be. -/
theorem ptpFsm_sends {state : PortState} {recommended : PortState} {mdiff : Bool}
    (known : recommended = .grandMaster ∨ recommended = .master ∨ recommended = .passive ∨
      recommended = .slave) (sends : state.sends)
    (still : ptpFsm state (recommendation recommended) mdiff = state) :
    recommended = .grandMaster ∨ recommended = .master := by
  rcases known with rfl | rfl | rfl | rfl
  · exact Or.inl rfl
  · exact Or.inr rfl
  · cases state <;> cases mdiff <;>
      first | exact absurd sends (by decide) | exact absurd still (by decide)
  · cases state <;> cases mdiff <;>
      first | exact absurd sends (by decide) | exact absurd still (by decide)

/-- A passive port that stays so was told to be. -/
theorem ptpFsm_passive {recommended : PortState} {mdiff : Bool}
    (known : recommended = .grandMaster ∨ recommended = .master ∨ recommended = .passive ∨
      recommended = .slave)
    (still : ptpFsm .passive (recommendation recommended) mdiff = .passive) :
    recommended = .passive := by
  rcases known with rfl | rfl | rfl | rfl
  · cases mdiff <;> cases still
  · cases mdiff <;> cases still
  · rfl
  · cases mdiff <;> cases still

/-- A port that follows a master and goes on to do so was told to be a slave. -/
theorem ptpFsm_tracks {state : PortState} {recommended : PortState} {mdiff : Bool}
    (known : recommended = .grandMaster ∨ recommended = .master ∨ recommended = .passive ∨
      recommended = .slave) (tracks : state.tracks)
    (still : ptpFsm state (recommendation recommended) mdiff = state) :
    recommended = .slave := by
  rcases known with rfl | rfl | rfl | rfl
  · cases state <;> cases mdiff <;>
      first | exact absurd tracks (by decide) | exact absurd still (by decide)
  · cases state <;> cases mdiff <;>
      first | exact absurd tracks (by decide) | exact absurd still (by decide)
  · cases state <;> cases mdiff <;>
      first | exact absurd tracks (by decide) | exact absurd still (by decide)
  · rfl

/-! ## What the clocks go by -/

section Sources

variable {Node Segment : Type} {clocks : Node → Clock} {segment : Node → Nat → Segment}
  {answers : Node → Answers} {states : Node → ClockState} {n m h : Node} {p q : Nat}

/-- A segment is shared by both. -/
theorem Linked.symm (linked : Linked clocks segment n m) : Linked clocks segment m n := by
  obtain ⟨p, mine, q, theirs, shared⟩ := linked
  exact ⟨q, theirs, p, mine, shared.symm⟩

/-- What can be reached can be reached back. -/
theorem linked_back (reaches : Relation.ReflTransGen (Linked clocks segment) n m) :
    Relation.ReflTransGen (Linked clocks segment) m n := by
  induction reaches with
  | refl => exact .refl
  | tail _ linked inductionHypothesis => exact .head linked.symm inductionHypothesis

/-- Who hears another one is linked with it. -/
theorem Hears.linked (hears : Hears clocks segment states n p m q) :
    Linked clocks segment n m := ⟨p, hears.mine, q, hears.theirs, hears.shared⟩

/-- Ports of one segment hear the same, but for what their own clock sends. -/
theorem Hears.shift {l : Node} {r : Nat} (hears : Hears clocks segment states m q l r)
    (mine : p ∈ (clocks n).ports) (shared : segment n p = segment m q) (other : l ≠ n) :
    Hears clocks segment states n p l r :=
  ⟨mine, hears.theirs, shared.trans hears.shared, other, hears.sends, hears.near⟩

/-- A clock that goes by another one announces the merit of that one. -/
theorem Names.merit (names : Names clocks states h m) :
    (heardFrom clocks states n p m q).merit = ownMerit clocks states h := by
  simp only [heardFrom, announceToDataset, announceOf, ownMerit, Dataset.merit, clockDefaultDs,
    names.identity, names.quality, names.priority1, names.priority2]

/-- A grandmaster goes by itself. -/
theorem IsGrandmaster.names (leads : IsGrandmaster (clocks n) (states n).dds (states n)) :
    Names clocks states n n := by
  obtain ⟨_, parent⟩ := leads
  constructor <;> rw [parent]

/-- A clock that goes by what it heard goes by the same grandmaster. -/
theorem GoesByDataset.names
    (goesBy : GoesByDataset (heardFrom clocks states n p m q) (states n))
    (names : Names clocks states h m) : Names clocks states h n := by
  obtain ⟨_, parent⟩ := goesBy
  constructor
  · rw [parent]
    exact names.identity
  · rw [parent]
    exact names.quality
  · rw [parent]
    exact names.priority1
  · rw [parent]
    exact names.priority2

/-- One step more than what was heard; below 255 the sum does not wrap around. -/
theorem GoesByDataset.steps (near : (states m).stepsRemoved < 255)
    (goesBy : GoesByDataset (heardFrom clocks states n p m q) (states n)) :
    (states n).stepsRemoved.toNat = (states m).stepsRemoved.toNat + 1 := by
  have bound := UInt16.lt_iff_toNat_lt.mp near
  have steps : (states n).stepsRemoved = 1 + (states m).stepsRemoved := goesBy.1
  rw [steps, UInt16.toNat_add]
  simp only [UInt16.reduceToNat] at bound ⊢
  omega

namespace Rivals

variable (rivals : Rivals clocks states)

include rivals

/-- A clock hears others than itself. -/
theorem apart (other : m ≠ n) :
    (heardFrom clocks states n p m q).receiver ≠ (heardFrom clocks states n p m q).sender := by
  intro same
  exact other (rivals.distinct m n (congrArg PortIdentity.clockIdentity same).symm)

/-- A clock goes by one clock only. -/
theorem names_unique (first : Names clocks states h n) (second : Names clocks states m n) :
    h = m := rivals.distinct h m (first.identity.symm.trans second.identity)

/-- Clocks of the same merit are one clock. -/
theorem ownMerit_inj (same : ownMerit clocks states n = ownMerit clocks states m) : n = m :=
  rivals.distinct n m (merit_inj same)

/-- What names the same grandmaster describes it alike. -/
theorem describes {g l : Node} {r t : Nat} (first : Names clocks states h m)
    (second : Names clocks states g l) :
    (heardFrom clocks states n p m q).Describes (heardFrom clocks states n r l t) := by
  intro same
  have identities : h = g :=
    rivals.distinct h g (first.identity.symm.trans (same.trans second.identity))
  subst identities
  exact ⟨first.priority1.trans second.priority1.symm, first.quality.trans second.quality.symm,
    first.priority2.trans second.priority2.symm⟩

/-- Two data sets are compared by `dscmp`, as neither clock is a telecom one. -/
theorem dscmp_both (n : Node) (first second : Dataset) :
    (clocks n).dscmp (some first) (some second) = dscmpBoth (clocks n).order first second := by
  unfold Clock.dscmp
  rw [rivals.plain n]
  rfl

/-- Different grandmasters are compared by their merits. -/
theorem compares (names : Names clocks states h m) (differ : h ≠ n) :
    (clocks n).dscmp (some (clockDefaultDs (clocks n) (states n)))
        (some (heardFrom clocks states n p m q)) > 0 ↔
      ownMerit clocks states n < ownMerit clocks states h := by
  rw [rivals.dscmp_both, gt_iff_lt, merit_lt_of_dscmpBoth, names.merit]
  · exact Iff.rfl
  · intro same
    exact differ (rivals.distinct h n (names.identity.symm.trans same.symm))

end Rivals

namespace SettledNetwork

variable (settled : SettledNetwork clocks segment answers states)

include settled

/-- A port of a settled network does not listen: it is in one of the states that last. -/
theorem heeded (mine : p ∈ (clocks n).ports) : ((states n).ports p).state ≠ .listening := by
  intro listening
  rcases settled.lasting n p mine with sends | passive | tracks
  · rw [listening] at sends
    cases sends
  · rw [listening] at passive
    cases passive
  · rw [listening] at tracks
    cases tracks

/-- A port of a settled network is not faulty. -/
theorem sound (mine : p ∈ (clocks n).ports) : ((states n).ports p).state ≠ .faulty := by
  intro faulty
  rcases settled.lasting n p mine with sends | passive | tracks
  · rw [faulty] at sends
    cases sends
  · rw [faulty] at passive
    cases passive
  · rw [faulty] at tracks
    cases tracks

/-- What a port is told. -/
theorem recommended (mine : p ∈ (clocks n).ports) :
    let told := bmcStateDecision (clocks n) p (decided (clocks n) (answers n) (states n)).2
    told = .grandMaster ∨ told = .master ∨ told = .passive ∨ told = .slave := by
  rcases bmcStateDecision_known (c := clocks n) p
    (decided (clocks n) (answers n) (states n)).2 with listening | known
  · exfalso
    have state := settled.heeded mine
    rw [← decided_port_state (clocks n) (answers n) (states n) p] at state
    unfold bmcStateDecision at listening
    dsimp only at listening
    split at listening
    next still => exact state still.2
    next => split_ifs at listening
  · exact known

/-- What is recommended to a port leaves it in its state. -/
theorem keeps (mine : p ∈ (clocks n).ports) :
    ptpFsm ((states n).ports p).state (recommendation (bmcStateDecision (clocks n) p
      (decided (clocks n) (answers n) (states n)).2))
      (decided (clocks n) (answers n) (states n)).1 = ((states n).ports p).state :=
  outcome_port mine (settled.free n) (settled.still n p mine) (settled.heeded mine)
    (settled.sound mine)

/-- A clock of a class above 127 is grandmaster, or it goes by the best that it hears. -/
theorem source (high : ¬(states n).dds.clockQuality.clockClass ≤ 127) :
    BeatsBest (clocks n) (answers n) (states n) ∧
        IsGrandmaster (clocks n) (states n).dds (states n) ∨
      ¬BeatsBest (clocks n) (answers n) (states n) ∧ ∃ b p m q,
        (decided (clocks n) (answers n) (states n)).2.best = some b ∧ b.port = p ∧
        Hears clocks segment states n p m q ∧ b.dataset = heardFrom clocks states n p m q ∧
        GoesByDataset (heardFrom clocks states n p m q) (states n) := by
  by_cases beats : BeatsBest (clocks n) (answers n) (states n)
  · left
    refine ⟨beats, ?_⟩
    have told : ∀ p ∈ (clocks n).ports, bmcStateDecision (clocks n) p
        (decided (clocks n) (answers n) (states n)).2 = .grandMaster := by
      intro p mine
      rw [decision_high high (fun _ => settled.heeded mine), if_pos beats]
    obtain ⟨p, mine⟩ := List.exists_mem_of_ne_nil _ (settled.present n)
    have leads := outcome_grandmaster (fun p mine => by rw [told p mine]; decide)
      ⟨p, mine, told p mine⟩
    unfold IsGrandmaster at leads ⊢
    rw [settled.parent n, settled.steps n] at leads
    exact leads
  · right
    refine ⟨beats, ?_⟩
    cases best : (decided (clocks n) (answers n) (states n)).2.best with
    | none =>
      exfalso
      unfold BeatsBest at beats
      rw [best] at beats
      exact beats (by rw [Option.map_none, dscmp_none]; decide)
    | some b =>
      obtain ⟨mine, fc, _, candidate, same, _, _⟩ := decided_best (settled.addressed n) best
      obtain ⟨m, q, hears, described⟩ := settled.told n b.port mine fc candidate
      obtain ⟨_, goesBy⟩ := outcome_slave (settled.addressed n) high beats best
      rw [same, described] at goesBy
      exact ⟨b, b.port, m, q, rfl, rfl, hears, same.trans described,
        goesBy.congr (settled.parent n).symm (settled.steps n).symm⟩

/-- A clock of a class up to 127 with a port in charge is grandmaster. -/
theorem leads_of_sends (low : (states n).dds.clockQuality.clockClass ≤ 127)
    (mine : p ∈ (clocks n).ports) (told : bmcStateDecision (clocks n) p
      (decided (clocks n) (answers n) (states n)).2 = .grandMaster) :
    IsGrandmaster (clocks n) (states n).dds (states n) := by
  have leads := outcome_grandmaster (fun p mine => by
    rw [decision_low low (fun _ => settled.heeded mine)]
    split <;> decide) ⟨p, mine, told⟩
  unfold IsGrandmaster at leads ⊢
  rw [settled.parent n, settled.steps n] at leads
  exact leads

/-- A clock that goes by anything but a stale parent goes by a clock that it is connected to. -/
theorem named (there : ¬(states n).dds.clockQuality.clockClass ≤ 127 ∨
      ∃ p ∈ (clocks n).ports, ((states n).ports p).state.sends) :
    ∃ h, Names clocks states h n ∧ Relation.ReflTransGen (Linked clocks segment) n h := by
  generalize count : (states n).stepsRemoved.toNat = k
  induction k using Nat.strong_induction_on generalizing n with
  | h k inductionHypothesis =>
    by_cases high : ¬(states n).dds.clockQuality.clockClass ≤ 127
    · rcases settled.source high with ⟨_, leads⟩ | ⟨_, b, p, m, q, _, _, hears, _, goesBy⟩
      · exact ⟨n, leads.names, .refl⟩
      · have steps := goesBy.steps hears.near
        obtain ⟨h, names, reaches⟩ := inductionHypothesis (states m).stepsRemoved.toNat
          (by omega) (Or.inr ⟨q, hears.theirs, hears.sends⟩) rfl
        exact ⟨h, goesBy.names names, .head hears.linked reaches⟩
    · have low := not_not.mp high
      obtain ⟨p, mine, sends⟩ := there.resolve_left high
      have told : bmcStateDecision (clocks n) p
          (decided (clocks n) (answers n) (states n)).2 = .grandMaster := by
        have known := ptpFsm_sends (settled.recommended mine) sends (settled.keeps mine)
        rw [decision_low low (fun _ => settled.heeded mine)] at known ⊢
        split at known
        next beats => rw [if_pos beats]
        next => simp at known
      exact ⟨n, (settled.leads_of_sends low mine told).names, .refl⟩

/-- What is heard names a clock of the network. -/
theorem named_heard (hears : Hears clocks segment states n p m q) :
    ∃ h, Names clocks states h m ∧ Relation.ReflTransGen (Linked clocks segment) m h :=
  settled.named (Or.inr ⟨q, hears.theirs, hears.sends⟩)

/-- A clock other than the one that it names has taken a step away from it. -/
theorem away (names : Names clocks states h m) (differ : h ≠ m)
    (there : ¬(states m).dds.clockQuality.clockClass ≤ 127 ∨
      ∃ p ∈ (clocks m).ports, ((states m).ports p).state.sends) :
    0 < (states m).stepsRemoved.toNat := by
  have other : ¬IsGrandmaster (clocks m) (states m).dds (states m) := by
    intro leads
    exact differ (settled.distinct h m (names.identity.symm.trans leads.names.identity))
  by_cases high : ¬(states m).dds.clockQuality.clockClass ≤ 127
  · rcases settled.source high with ⟨_, leads⟩ | ⟨_, b, p, l, q, _, _, hears, _, goesBy⟩
    · exact absurd leads other
    · have steps := goesBy.steps hears.near
      omega
  · exfalso
    have low := not_not.mp high
    obtain ⟨p, mine, sends⟩ := there.resolve_left high
    apply other
    apply settled.leads_of_sends low mine
    have known := ptpFsm_sends (settled.recommended mine) sends (settled.keeps mine)
    rw [decision_low low (fun _ => settled.heeded mine)] at known ⊢
    split at known
    next beats => rw [if_pos beats]
    next => simp at known

/-- A clock is better than one that it hears of if its merit is the better one, or if it hears of
itself. -/
theorem beats_heard (hears : Hears clocks segment states n p m q)
    (names : Names clocks states h m)
    (least : h = n ∨ ownMerit clocks states n < ownMerit clocks states h) :
    (clocks n).dscmp (some (clockDefaultDs (clocks n) (states n)))
      (some (heardFrom clocks states n p m q)) > 0 := by
  by_cases self : h = n
  · subst self
    rw [settled.dscmp_both]
    apply dscmpBoth_own
    · exact names.identity.symm
    · rfl
    · exact settled.away names hears.other.symm (Or.inr ⟨q, hears.theirs, hears.sends⟩)
    · exact settled.apart hears.other
  · exact (settled.compares names self).mpr (least.resolve_left self)

/-- A clock of a class up to 127 tells all its ports to be grandmaster. -/
theorem told_low (low : (states n).dds.clockQuality.clockClass ≤ 127)
    (mine : p ∈ (clocks n).ports) : bmcStateDecision (clocks n) p
      (decided (clocks n) (answers n) (states n)).2 = .grandMaster := by
  rw [decision_low low (fun _ => settled.heeded mine), if_pos]
  rw [decided_bestForeign (settled.addressed n) mine]
  cases found : elect (clocks n).compareForeign
      (candidates (clocks n) (answers n) p ((states n).ports p)) with
  | none =>
    rw [Option.map_none, dscmp_none]
    decide
  | some fc =>
    obtain ⟨m, q, hears, described⟩ := settled.told n p mine fc (elect_mem found)
    obtain ⟨h, names, _⟩ := settled.named_heard hears
    rw [Option.map_some, described]
    apply settled.beats_heard hears names
    by_cases self : h = n
    · exact Or.inl self
    · exact Or.inr (settled.lowest n low h self)

/-- A clock of a class up to 127 is grandmaster: it is better than all others, so that its ports are
in charge, and then it goes by itself. -/
theorem leads_of_low (low : (states n).dds.clockQuality.clockClass ≤ 127) :
    IsGrandmaster (clocks n) (states n).dds (states n) := by
  obtain ⟨p, mine⟩ := List.exists_mem_of_ne_nil _ (settled.present n)
  exact settled.leads_of_sends low mine (settled.told_low low mine)

/-- Every clock is grandmaster, or goes by one that it hears. -/
theorem sources (n : Node) : IsGrandmaster (clocks n) (states n).dds (states n) ∨
    ∃ p m q, Hears clocks segment states n p m q ∧
      GoesByDataset (heardFrom clocks states n p m q) (states n) := by
  by_cases high : ¬(states n).dds.clockQuality.clockClass ≤ 127
  · rcases settled.source high with ⟨_, leads⟩ | ⟨_, b, p, m, q, _, _, hears, _, goesBy⟩
    · exact Or.inl leads
    · exact Or.inr ⟨p, m, q, hears, goesBy⟩
  · exact Or.inl (settled.leads_of_low (not_not.mp high))

/-! ## Agreement -/

/-- Among fewer than 256 clocks none is farther than 254 steps away. -/
theorem near [Fintype Node] (few : Fintype.card Node ≤ 255) (n : Node) :
    (states n).stepsRemoved < 255 := by
  have below : ∀ k n, (states n).stepsRemoved.toNat = k → ∀ j ≤ k,
      ∃ m, (states m).stepsRemoved.toNat = j := by
    intro k
    induction k using Nat.strong_induction_on with
    | h k inductionHypothesis =>
      intro n count j less
      by_cases here : j = k
      · exact ⟨n, count.trans here.symm⟩
      · rcases settled.sources n with ⟨steps, _⟩ | ⟨p, m, q, hears, goesBy⟩
        · rw [steps, UInt16.toNat_zero] at count
          omega
        · have steps := goesBy.steps hears.near
          exact inductionHypothesis (states m).stepsRemoved.toNat (by omega) m rfl j (by omega)
  have every : Finset.range ((states n).stepsRemoved.toNat + 1) ⊆
      Finset.univ.image fun m => (states m).stepsRemoved.toNat := by
    intro j member
    obtain ⟨m, count⟩ := below _ n rfl j (Nat.lt_succ_iff.mp (Finset.mem_range.mp member))
    exact Finset.mem_image.mpr ⟨m, Finset.mem_univ m, count⟩
  have size := (Finset.card_le_card every).trans Finset.card_image_le
  rw [Finset.card_range, Finset.card_univ] at size
  apply UInt16.lt_iff_toNat_lt.mpr
  simp only [UInt16.reduceToNat]
  omega

/-- The foreign masters that a clock compares are told apart from it and from each other. -/
theorem comparable (n : Node) : Comparable (clocks n) (answers n) (states n) := by
  constructor
  · exact settled.plain n
  · intro p mine fc candidate
    obtain ⟨m, q, hears, described⟩ := settled.told n p mine fc candidate
    rw [described]
    exact settled.apart hears.other
  · intro p mine fc candidate q also other found
    obtain ⟨m, r, hears, described⟩ := settled.told n p mine fc candidate
    obtain ⟨l, t, hears', described'⟩ := settled.told n q also other found
    obtain ⟨h, names, _⟩ := settled.named_heard hears
    obtain ⟨h', names', _⟩ := settled.named_heard hears'
    rw [described, described']
    exact settled.describes names names'

/-- The best of the clocks that are connected is grandmaster. -/
theorem leads_of_least {g : Node} (least : ∀ m, Relation.ReflTransGen (Linked clocks segment) g m →
    ownMerit clocks states g ≤ ownMerit clocks states m) :
    IsGrandmaster (clocks g) (states g).dds (states g) := by
  by_cases high : ¬(states g).dds.clockQuality.clockClass ≤ 127
  · rcases settled.source high with ⟨_, leads⟩ | ⟨yields, b, p, m, q, best, _, hears, same, _⟩
    · exact leads
    · exfalso
      obtain ⟨h, names, reaches⟩ := settled.named_heard hears
      apply yields
      unfold BeatsBest
      rw [best, Option.map_some, same]
      apply settled.beats_heard hears names
      by_cases self : h = g
      · exact Or.inl self
      · exact Or.inr ((least h (.head hears.linked reaches)).lt_of_ne fun equal =>
          self (settled.ownMerit_inj equal).symm)
  · exact settled.leads_of_low (not_not.mp high)

/-- What a clock goes by that goes by the best one is heard on the segments of all its ports. -/
theorem heard_beyond {g : Node} (near : (states m).stepsRemoved < 255)
    (names : Names clocks states g m) (mine : p ∈ (clocks n).ports) (theirs : q ∈ (clocks m).ports)
    (shared : segment n p = segment m q) :
    Names clocks states g n ∨
      ∃ l r, Hears clocks segment states n p l r ∧ Names clocks states g l := by
  have beyond : ∀ l r, Hears clocks segment states m q l r → Names clocks states g l →
      Names clocks states g n ∨
        ∃ l r, Hears clocks segment states n p l r ∧ Names clocks states g l := by
    intro l r hears named
    by_cases self : l = n
    · exact Or.inl (self ▸ named)
    · exact Or.inr ⟨l, r, hears.shift mine shared self, named⟩
  have known := settled.recommended theirs
  have keeps := settled.keeps theirs
  rcases settled.lasting m q theirs with sends | passive | tracks
  · by_cases self : m = n
    · exact Or.inl (self ▸ names)
    · exact Or.inr ⟨m, q, ⟨mine, theirs, shared, self, sends, near⟩, names⟩
  · rw [passive] at keeps
    have told := ptpFsm_passive known keeps
    have high : ¬(states m).dds.clockQuality.clockClass ≤ 127 := by
      intro low
      rw [settled.told_low low theirs] at told
      cases told
    rcases settled.source high with ⟨beats, _⟩ | ⟨yields, b, _, l, r, best, _, hears, same, goesBy⟩
    · rw [decision_high high (fun _ => settled.heeded theirs), if_pos beats] at told
      cases told
    · rw [decision_high high (fun _ => settled.heeded theirs), if_neg yields, best,
        decided_bestForeign (settled.addressed m) theirs] at told
      split at told
      · cases told
      split at told
      next topo =>
        cases found : elect (clocks m).compareForeign
            (candidates (clocks m) (answers m) q ((states m).ports q)) with
        | none =>
          rw [found, Option.map_some, Option.map_none, dscmp_none] at topo
          cases topo
        | some fc =>
          obtain ⟨k, t, hears', described⟩ := settled.told m q theirs fc (elect_mem found)
          obtain ⟨h, names', _⟩ := settled.named_heard hears'
          have compared : dscmpBoth (clocks m).order b.dataset fc.dataset = aBetterTopo := by
            rw [found, Option.map_some, Option.map_some, settled.dscmp_both] at topo
            exact topo
          have identities := identity_of_topo compared
          rw [same, described] at identities
          have parent : (states m).parent.grandmasterIdentity =
              (states k).parent.grandmasterIdentity := by
            rw [goesBy.2]
            exact identities
          have one : h = g := by
            apply settled.distinct
            rw [← names'.identity, ← names.identity]
            exact parent.symm
          exact beyond k t hears' (one ▸ names')
      next => cases told
  · have told := ptpFsm_tracks known tracks keeps
    have high : ¬(states m).dds.clockQuality.clockClass ≤ 127 := by
      intro low
      rw [settled.told_low low theirs] at told
      cases told
    obtain ⟨port, _⟩ := bmcStateDecision_slave told
    rcases settled.source high with ⟨beats, _⟩ | ⟨_, b, _, l, r, best, rfl, hears, _, goesBy⟩
    · rw [decision_high high (fun _ => settled.heeded theirs), if_pos beats] at told
      cases told
    · rw [best, Option.map_some] at port
      have here : b.port = q := Option.some.inj port
      rw [here] at hears goesBy
      obtain ⟨h, names', _⟩ := settled.named_heard hears
      have one : h = g := settled.names_unique (goesBy.names names') names
      exact beyond l r hears (one ▸ names')

/-- The clocks next to one that goes by the best one do so, too. -/
theorem spreads {g : Node} (near : (states m).stepsRemoved < 255)
    (least : ∀ l, Relation.ReflTransGen (Linked clocks segment) g l →
      ownMerit clocks states g ≤ ownMerit clocks states l)
    (reaches : Relation.ReflTransGen (Linked clocks segment) g n)
    (linked : Linked clocks segment n m) (names : Names clocks states g m) :
    Names clocks states g n := by
  by_cases self : n = g
  · subst self
    exact (settled.leads_of_least least).names
  obtain ⟨p, mine, q, theirs, shared⟩ := linked
  rcases settled.heard_beyond near names mine theirs shared with done | ⟨l, r, hears, named⟩
  · exact done
  have high : ¬(states n).dds.clockQuality.clockClass ≤ 127 := fun low =>
    absurd (settled.lowest n low g (Ne.symm self)) (not_lt.mpr (least n reaches))
  obtain ⟨fc, candidate, described⟩ := settled.heard n p l r hears
  -- The best master of this clock names the best clock, for it is not worse than what was heard.
  have best : ∀ b, (decided (clocks n) (answers n) (states n)).2.best = some b →
      ∀ p' m' q', Hears clocks segment states n p' m' q' →
      b.dataset = heardFrom clocks states n p' m' q' → Names clocks states g m' := by
    intro b selected p' m' q' hears' same
    obtain ⟨h, names', reaches'⟩ := settled.named_heard hears'
    have rank := decided_least (settled.comparable n) selected mine candidate
    have merit := merit_of_rank rank
    rw [same, described, names'.merit, named.merit] at merit
    have more := least h (reaches.trans (.head hears'.linked reaches'))
    have one : h = g := (settled.ownMerit_inj (le_antisymm more merit)).symm
    exact one ▸ names'
  rcases settled.source high with ⟨beats, _⟩ | ⟨_, b, p', m', q', selected, _, hears', same, goesBy⟩
  · exfalso
    obtain ⟨b, selected⟩ := decided_some (a := answers n) mine candidate
    obtain ⟨there, fc', _, candidate', same, _⟩ := decided_best (settled.addressed n) selected
    obtain ⟨m', q', hears', described'⟩ := settled.told n b.port there fc' candidate'
    have named' := best b selected b.port m' q' hears' (same.trans described')
    unfold BeatsBest at beats
    rw [selected, Option.map_some, same, described',
      settled.compares named' (Ne.symm self)] at beats
    exact absurd beats (not_lt.mpr (least n reaches))
  · exact goesBy.names (best b selected p' m' q' hears' same)

end SettledNetwork

/-- In a settled network of up to 255 clocks all clocks that are connected go by one of them, the
best one. It alone is grandmaster; every other one goes by a clock that it hears and that is one
step nearer to it.

Proof: take a connected clock of the best data set. It cannot go by another one, so it is
grandmaster. A clock next to one that goes by it hears of it or tells of it, and would not be still
if it went by any other; so all clocks that are connected do. -/
theorem settled_agree [Fintype Node] (few : Fintype.card Node ≤ 255)
    (settled : SettledNetwork clocks segment answers states) (root : Node) :
    ∃ g, Relation.ReflTransGen (Linked clocks segment) root g ∧
      ∀ n, Relation.ReflTransGen (Linked clocks segment) root n →
        ownMerit clocks states g ≤ ownMerit clocks states n ∧ Names clocks states g n ∧
        (n = g → IsGrandmaster (clocks n) (states n).dds (states n)) ∧
        (n ≠ g → ∃ p m q, Hears clocks segment states n p m q ∧
          (states n).parent.parentPortIdentity = (clocks m).portIdentity q ∧
          (states n).stepsRemoved.toNat = (states m).stepsRemoved.toNat + 1) := by
  obtain ⟨g, reached, least⟩ := Set.exists_min_image
    {n | Relation.ReflTransGen (Linked clocks segment) root n} (ownMerit clocks states)
    (Set.toFinite _) ⟨root, .refl⟩
  have back := linked_back reached
  have leastThere : ∀ m, Relation.ReflTransGen (Linked clocks segment) g m →
      ownMerit clocks states g ≤ ownMerit clocks states m :=
    fun m reaches => least m (reached.trans reaches)
  have leads := settled.leads_of_least leastThere
  refine ⟨g, reached, ?_⟩
  intro n reaches
  have names : Names clocks states g n := by
    have there := back.trans reaches
    induction there with
    | refl => exact leads.names
    | tail before linked inductionHypothesis =>
      exact settled.spreads (settled.near few _) leastThere (before.tail linked) linked.symm
        (inductionHypothesis (reached.trans before))
  refine ⟨least n reaches, names, fun self => self ▸ leads, ?_⟩
  intro other
  rcases settled.sources n with own | ⟨p, m, q, hears, goesBy⟩
  · exact absurd (settled.names_unique own.names names) other
  · exact ⟨p, m, q, hears, by rw [goesBy.2]; rfl, goesBy.steps hears.near⟩

/-! ## Clocks that meet -/

/-- Clocks with one port each on one segment, each of them grandmaster so far. The foreign masters
that qualify at a port are all the others, as they announce themselves. -/
structure Meeting (clocks : Node → Clock) (answers : Node → Answers)
    (states : Node → ClockState) : Prop extends Rivals clocks states where
  addressed : ∀ n, Addressed (states n)
  alone : ∀ n, (clocks n).ports = [1]
  leads : ∀ n, IsGrandmaster (clocks n) (states n).dds (states n)
  told : ∀ n, ∀ fc ∈ candidates (clocks n) (answers n) 1 ((states n).ports 1),
    ∃ m, m ≠ n ∧ fc.dataset = heardFrom clocks states n 1 m 1
  heard : ∀ n m, m ≠ n → ∃ fc ∈ candidates (clocks n) (answers n) 1 ((states n).ports 1),
    fc.dataset = heardFrom clocks states n 1 m 1

namespace Meeting

variable (meeting : Meeting clocks answers states)

include meeting

/-- At the beginning every clock goes by itself. -/
theorem names (n : Node) : Names clocks states n n := (meeting.leads n).names

/-- The one port of a clock. -/
theorem mine (n : Node) : 1 ∈ (clocks n).ports := by
  rw [meeting.alone]
  exact List.mem_singleton_self 1

theorem comparable (n : Node) : Comparable (clocks n) (answers n) (states n) := by
  have only : ∀ p, p ∈ (clocks n).ports → p = 1 := by
    intro p mine
    rw [meeting.alone] at mine
    exact List.mem_singleton.mp mine
  constructor
  · exact meeting.plain n
  · intro p mine fc candidate
    rw [only p mine] at candidate
    obtain ⟨m, other, described⟩ := meeting.told n fc candidate
    rw [described]
    exact meeting.apart other
  · intro p mine fc candidate q also second found
    rw [only p mine] at candidate
    rw [only q also] at found
    obtain ⟨m, _, described⟩ := meeting.told n fc candidate
    obtain ⟨l, _, described'⟩ := meeting.told n second found
    rw [described, described']
    exact meeting.describes (meeting.names m) (meeting.names l)

/-- A clock that hears another one has a best master, on its only port. -/
theorem best {n m : Node} (other : m ≠ n) :
    ∃ b l, (decided (clocks n) (answers n) (states n)).2.best = some b ∧ b.port = 1 ∧ l ≠ n ∧
      b.dataset = heardFrom clocks states n 1 l 1 := by
  obtain ⟨fc, candidate, _⟩ := meeting.heard n m other
  obtain ⟨b, selected⟩ := decided_some (meeting.mine n) candidate
  obtain ⟨there, won, _, stands, same, _⟩ := decided_best (meeting.addressed n) selected
  rw [meeting.alone] at there
  have here := List.mem_singleton.mp there
  rw [here] at stands
  obtain ⟨l, differ, described⟩ := meeting.told n won stands
  exact ⟨b, l, selected, here, differ, same.trans described⟩

/-- What the port has heard of takes it out of listening. -/
theorem attentive {n m : Node} (other : m ≠ n)
    (nothing : ((decided (clocks n) (answers n) (states n)).2.ports 1).bestForeign = none) :
    ((states n).ports 1).state ≠ .listening := by
  obtain ⟨fc, candidate, _⟩ := meeting.heard n m other
  rw [decided_bestForeign (meeting.addressed n) (meeting.mine n), elect_none] at nothing
  rw [nothing] at candidate
  cases candidate

/-- The best of the clocks tells its port to be grandmaster. -/
theorem best_leads {g m : Node} (other : m ≠ g)
    (least : ∀ l, ownMerit clocks states g ≤ ownMerit clocks states l) :
    bmcStateDecision (clocks g) 1 (decided (clocks g) (answers g) (states g)).2 =
      .grandMaster := by
  have beats : ∀ l, l ≠ g → (clocks g).dscmp (some (clockDefaultDs (clocks g) (states g)))
      (some (heardFrom clocks states g 1 l 1)) > 0 := by
    intro l differ
    rw [meeting.compares (meeting.names l) differ]
    exact (least l).lt_of_ne fun same => differ (meeting.ownMerit_inj same).symm
  by_cases low : (states g).dds.clockQuality.clockClass ≤ 127
  · rw [decision_low low (meeting.attentive other), if_pos]
    rw [decided_bestForeign (meeting.addressed g) (meeting.mine g)]
    cases found : elect (clocks g).compareForeign
        (candidates (clocks g) (answers g) 1 ((states g).ports 1)) with
    | none =>
      rw [Option.map_none, dscmp_none]
      decide
    | some fc =>
      obtain ⟨l, differ, described⟩ := meeting.told g fc (elect_mem found)
      rw [Option.map_some, described]
      exact beats l differ
  · rw [decision_high low (meeting.attentive other), if_pos]
    obtain ⟨b, l, selected, _, differ, same⟩ := meeting.best other
    unfold BeatsBest
    rw [selected, Option.map_some, same]
    exact beats l differ

/-- Every other clock tells its port to follow the best one, and goes by what it announces. -/
theorem others_follow {g n : Node} (other : n ≠ g)
    (least : ∀ l, ownMerit clocks states g ≤ ownMerit clocks states l) :
    bmcStateDecision (clocks n) 1 (decided (clocks n) (answers n) (states n)).2 = .slave ∧
      GoesByDataset (heardFrom clocks states n 1 g 1)
        (handleStateDecisionEvent (clocks n) (answers n) (states n)) := by
  have high : ¬(states n).dds.clockQuality.clockClass ≤ 127 := fun low =>
    absurd (meeting.lowest n low g (Ne.symm other)) (not_lt.mpr (least n))
  obtain ⟨b, l, selected, here, differ, same⟩ := meeting.best (Ne.symm other)
  obtain ⟨fc, candidate, described⟩ := meeting.heard n g (Ne.symm other)
  -- The best master is not worse than the best clock, which was heard as well.
  have rank := decided_least (meeting.comparable n) selected (meeting.mine n) candidate
  have merit := merit_of_rank rank
  rw [same, described, (meeting.names l).merit, (meeting.names g).merit] at merit
  have one : l = g := meeting.ownMerit_inj (le_antisymm merit (least l))
  rw [one] at same
  have yields : ¬BeatsBest (clocks n) (answers n) (states n) := by
    unfold BeatsBest
    rw [selected, Option.map_some, same, meeting.compares (meeting.names g) (Ne.symm other)]
    exact not_lt.mpr (least n)
  have outcome := outcome_slave (meeting.addressed n) high yields selected
  rw [here, same] at outcome
  exact outcome

end Meeting

end Sources

/-! ## Two clocks on one segment -/

/-- Ordinary clocks that differ by their identities. -/
def pairClocks (follows : Bool) : Clock :=
  { smallClock with
    type := .ordinary
    clockIdentity := Vector.replicate 8 (if follows then 2 else 1)
    nports := 1 }

/-- The clocks of a pair before they know of each other. -/
def pairOpen (follows : Bool) : ClockState :=
  { clockOpen (pairClocks follows) ⟨128, ⟨248, 254, 65535⟩, 128⟩ 37 160 false with
    bestId := Vector.replicate 8 1 }

/-- The one with the smaller identity is in charge. -/
def pairLeader : ClockState :=
  (pairOpen false).withPort 1 fun port => { port with state := .master }

theorem counted_none : 0 = ([] : List Stored).length := rfl

/-- What one of them keeps of what the other one announces. -/
def pairRecord (follows : Bool) : ForeignClock :=
  let announce := announceOf (pairClocks !follows) 1 (pairOpen !follows)
  let record : ForeignClock :=
    { id := 0, dataset := announceToDataset (pairClocks follows) 1 announce,
      counted := counted_none }
  (record.insert ⟨1, announce⟩).insert ⟨0, announce⟩

def pairFollower : ClockState :=
  let s := (pairOpen true).withPort 1 fun port =>
    { port with state := .slave, foreignMasters := [pairRecord true], best := some 0 }
  { s with
    nextForeign := 1
    stepsRemoved := 1
    parent := { pairLeader.parent with
      parentPortIdentity := (pairClocks false).portIdentity 1 } }

def pairStates (follows : Bool) : ClockState := if follows then pairFollower else pairLeader

theorem pair_port {follows : Bool} {p : Nat} (mine : p ∈ (pairClocks follows).ports) : p = 1 :=
  List.mem_singleton.mp mine

theorem pair_elsewhere (follows : Bool) {q : Nat} (differ : q ≠ 1) :
    ((pairStates follows).ports q).addresses = [] := by
  have unheard (s : ClockState) (change : Port → Port) (bare : (s.ports q).addresses = []) :
      ((s.withPort 1 change).ports q).addresses = [] := by
    rw [withPort_other differ]
    exact bare
  cases follows
  · exact unheard (pairOpen false) (fun port => { port with state := .master }) rfl
  · exact unheard (pairOpen true) (fun port =>
      { port with state := .slave, foreignMasters := [pairRecord true], best := some 0 }) rfl

/-- A clock the first port of which alone has foreign masters. -/
theorem addressed_alone {s : ClockState} (bare : ∀ q, q ≠ 1 → (s.ports q).addresses = [])
    (distinct : (s.ports 1).addresses.Nodup)
    (known : ∀ id ∈ (s.ports 1).addresses, id < s.nextForeign) : Addressed s := by
  constructor
  · intro q
    by_cases here : q = 1
    · subst here
      exact distinct
    · rw [bare q here]
      exact List.nodup_nil
  · intro q id listed
    by_cases here : q = 1
    · subst here
      exact known id listed
    · rw [bare q here] at listed
      cases listed

theorem pair_candidates : candidates (pairClocks true) {} 1 ((pairStates true).ports 1) =
    [pairRecord true] := by decide +kernel

theorem pair_hears : Hears pairClocks (fun _ _ => ()) pairStates true 1 false 1 :=
  ⟨by decide, by decide, rfl, by decide, by decide, by decide⟩

theorem pair_settled : SettledNetwork pairClocks (fun _ _ => ()) (fun _ => {}) pairStates where
  distinct := by decide
  plain := by decide
  free := by decide
  present := by decide
  lowest := by decide
  addressed n := addressed_alone (fun _ => pair_elsewhere n) (by revert n; decide)
    (by revert n; decide)
  lasting := by decide
  told := by
    intro n p mine fc candidate
    rw [pair_port mine] at candidate ⊢
    cases n with
    | false => cases candidate
    | true =>
      rw [pair_candidates, List.mem_singleton] at candidate
      subst candidate
      exact ⟨false, 1, pair_hears, rfl⟩
  heard := by
    rintro n p m q ⟨mine, theirs, _, other, sends, _⟩
    rw [pair_port mine]
    rw [pair_port theirs] at sends ⊢
    cases n <;> cases m
    · exact absurd rfl other
    · cases sends
    · exact ⟨_, by rw [pair_candidates]; exact List.mem_singleton_self _, rfl⟩
    · exact absurd rfl other
  still := by decide +kernel
  parent := by decide +kernel
  steps := by decide +kernel

theorem settled_agree_pair : ∃ g, Relation.ReflTransGen (Linked pairClocks fun _ _ => ()) true g ∧
    ∀ n, Relation.ReflTransGen (Linked pairClocks fun _ _ => ()) true n →
      ownMerit pairClocks pairStates g ≤ ownMerit pairClocks pairStates n ∧
      Names pairClocks pairStates g n ∧
      (n = g → IsGrandmaster (pairClocks n) (pairStates n).dds (pairStates n)) ∧
      (n ≠ g → ∃ p m q, Hears pairClocks (fun _ _ => ()) pairStates n p m q ∧
        (pairStates n).parent.parentPortIdentity = (pairClocks m).portIdentity q ∧
        (pairStates n).stepsRemoved.toNat = (pairStates m).stepsRemoved.toNat + 1) :=
  settled_agree (by decide) pair_settled true

/-! ## Two clocks that meet -/

/-- Both clocks of the pair are in charge, and have heard each other. -/
def pairMet (follows : Bool) : ClockState :=
  let s := (pairOpen follows).withPort 1 fun port =>
    { port with state := .master, foreignMasters := [pairRecord follows] }
  { s with nextForeign := 1 }

theorem met_elsewhere (follows : Bool) {q : Nat} (differ : q ≠ 1) :
    ((pairMet follows).ports q).addresses = [] := by
  have bare : ((pairOpen follows).ports q).addresses = [] := rfl
  unfold pairMet
  dsimp only
  rw [withPort_other differ]
  exact bare

theorem met_candidates (follows : Bool) : candidates (pairClocks follows) {} 1
    ((pairMet follows).ports 1) = [pairRecord follows] := by
  revert follows
  decide +kernel

theorem pair_meeting : Meeting pairClocks (fun _ => {}) pairMet where
  distinct := by decide
  plain := by decide
  free := by decide
  present := by decide
  lowest := by decide
  addressed n := addressed_alone (fun _ => met_elsewhere n) (by revert n; decide)
    (by revert n; decide)
  alone := by decide
  leads := fun _ => ⟨rfl, rfl⟩
  told := by
    intro n fc candidate
    rw [met_candidates, List.mem_singleton] at candidate
    subst candidate
    exact ⟨!n, by cases n <;> decide, rfl⟩
  heard := by
    intro n m other
    have here : m = !n := by
      revert n m
      decide
    subst here
    exact ⟨_, by rw [met_candidates]; exact List.mem_singleton_self _, rfl⟩

end LinuxPtp
