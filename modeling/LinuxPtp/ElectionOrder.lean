import LinuxPtp.BestMaster
import LinuxPtp.ClockPoll

/-!
# The election does not depend on order

Foreign masters are told apart by their senders and by the ports on which they are heard, and the
data sets of candidates with these differences are strictly ordered.

The rank of a data set lists what the comparison looks at in order. Two candidates of one clock
never have the same rank, since either their senders differ or the ports that heard them do.
-/

namespace LinuxPtp

open Election

variable (c : Clock) (a b : Answers)

/-- The qualified foreign masters of some ports: one for each sender on a port, none of them the
port itself, and for `dscmp` described alike if they have one grandmaster. -/
structure ForeignSet (ports : List Nat) (s : ClockState) : Prop where
  single : ∀ p ∈ ports, ∀ fc ∈ candidates c a p (s.ports p),
    ∀ other ∈ candidates c a p (s.ports p), fc.dataset.sender = other.dataset.sender → fc = other
  apart : ∀ p ∈ ports, ∀ fc ∈ candidates c a p (s.ports p),
    fc.dataset.receiver ≠ fc.dataset.sender
  described : c.telecom = false → ∀ p ∈ ports, ∀ fc ∈ candidates c a p (s.ports p),
    ∀ q ∈ ports, ∀ other ∈ candidates c a q (s.ports q), fc.dataset.Describes other.dataset

variable {c a b} {ports others : List Nat} {s t : ClockState}

/-- A candidate was received by the port that lists it. -/
theorem candidate_receiver {p : Nat} {fc : ForeignClock}
    (member : fc ∈ candidates c a p (s.ports p)) : fc.dataset.receiver = c.portIdentity p := by
  unfold candidates at member
  split at member
  · cases member
  · obtain ⟨record, _, found⟩ := List.mem_filterMap.mp member
    unfold qualify at found
    split at found
    · cases found
    · dsimp only at found
      split at found
      · cases found
      · rw [← Option.some.inj found]
        rfl

/-- What stands among the contenders. -/
theorem mem_contenders {best : Best} : best ∈ (contenders c a ports s).flatten ↔
    ∃ p ∈ ports, ∃ fc ∈ candidates c a p (s.ports p), bestOf p fc = best := by
  simp [contenders]

/-- The contenders are strictly ordered. -/
theorem ForeignSet.orders (foreign : ForeignSet c a ports s)
    (distinct : (ports.map UInt16.ofNat).Nodup) :
    Orders c.compareBest fun best => best ∈ (contenders c a ports s).flatten := by
  have own : ∀ first second, first ∈ (contenders c a ports s).flatten →
      second ∈ (contenders c a ports s).flatten →
      first.dataset.sender = second.dataset.sender ∧
        first.dataset.receiver.portNumber = second.dataset.receiver.portNumber →
      first = second := by
    rintro first second one two ⟨senders, receivers⟩
    obtain ⟨p, listed, fc, member, rfl⟩ := mem_contenders.mp one
    obtain ⟨q, also, other, found, rfl⟩ := mem_contenders.mp two
    have numbers : UInt16.ofNat p = UInt16.ofNat q := by
      have here := candidate_receiver member
      have there := candidate_receiver found
      simp only [bestOf, here, there] at receivers
      exact receivers
    have ports : p = q := List.inj_on_of_nodup_map distinct listed also numbers
    subst ports
    rw [foreign.single p listed fc member other found senders]
  have sides : ∀ best, best ∈ (contenders c a ports s).flatten →
      best.dataset.receiver ≠ best.dataset.sender := by
    intro best standing
    obtain ⟨p, listed, fc, member, rfl⟩ := mem_contenders.mp standing
    exact foreign.apart p listed fc member
  cases telecom : c.telecom with
  | true =>
    apply Orders.of_rank fun best => best.dataset.telecomRank c.order
    · intro first second one two
      have agrees := telecomDscmpBoth_pos c.order (sides first one) (sides second two)
      simpa [Clock.compareBest, Clock.dscmp, telecom, telecomDscmp, comparePointers] using agrees
    · intro first second one two same
      exact own first second one two (telecomRank_inj c.order same)
  | false =>
    apply Orders.of_rank fun best => best.dataset.rank c.order
    · intro first second one two
      obtain ⟨p, listed, fc, member, rfl⟩ := mem_contenders.mp one
      obtain ⟨q, also, other, found, rfl⟩ := mem_contenders.mp two
      have agrees := dscmpBoth_pos c.order (sides _ one) (sides _ two)
        (foreign.described telecom p listed fc member q also other found)
      simpa [Clock.compareBest, Clock.dscmp, telecom, dscmp, comparePointers] using agrees
    · intro first second one two same
      exact own first second one two (rank_inj c.order same)

/-- Nobody is elected if and only if nobody stands. -/
theorem electBest_none (distinct : ports.Nodup) :
    (electBest c a ports s).1 = none ↔ (contenders c a ports s).flatten = [] := by
  rw [electBest_elect c a distinct, elect_none, List.filterMap_eq_nil_iff,
    List.flatten_eq_nil_iff]
  constructor
  · intro nobody group listed
    exact elect_none.mp (nobody group listed)
  · intro empty group listed
    exact elect_none.mpr (empty group listed)

/-- Who is elected wins against all. -/
theorem electBest_wins {S : Best → Prop} (orders : Orders c.compareBest S)
    (within : ∀ best ∈ (contenders c a ports s).flatten, S best) (distinct : ports.Nodup)
    {best : Best} (elected : (electBest c a ports s).1 = some best) :
    Wins c.compareBest (contenders c a ports s).flatten best := by
  rw [electBest_elect c a distinct] at elected
  exact orders.groups within elected

/-- The same records, in another order and pruned to the same, stand alike. -/
theorem candidates_perm {p : Nat} {first second : Port}
    (same : first.foreignMasters.Perm second.foreignMasters)
    (age : ∀ fc ∈ first.foreignMasters, qualify c a p fc = qualify c b p fc) :
    (candidates c a p first).Perm (candidates c b p second) := by
  unfold candidates
  split
  · exact List.Perm.refl _
  · rw [List.filterMap_congr age]
    exact same.filterMap _

theorem contenders_perm (samePorts : ports.Perm others)
    (same : ∀ p ∈ ports, (candidates c a p (s.ports p)).Perm (candidates c b p (t.ports p))) :
    (contenders c a ports s).flatten.Perm (contenders c b others t).flatten := by
  have maps : ∀ (a : Answers) (s : ClockState) (ports : List Nat),
      (contenders c a ports s).flatten =
        ports.flatMap fun p => (candidates c a p (s.ports p)).map (bestOf p) :=
    fun a s ports => (List.flatMap_def ..).symm
  rw [maps, maps]
  apply samePorts.flatMap
  intro p listed
  exact (same p listed).map _

/-- The foreign master that the clock selects is better than every other one, and it is the same
one whatever the order of the ports and of the records in each of them.

The records of other orders are those of one state with the records of each port, and the ports, in
any order, as long as the same ones qualify.

Proof: the comparison by the code is a strict order on the data sets of the candidates, since the
ports are told apart. So there is one least element, which every way of going through the candidates
finds. -/
theorem election_order (distinct : (ports.map UInt16.ofNat).Nodup)
    (foreign : ForeignSet c a ports s) (samePorts : ports.Perm others)
    (sameForeign : ∀ p ∈ ports, (s.ports p).foreignMasters.Perm (t.ports p).foreignMasters)
    (sameAge : ∀ p ∈ ports, ∀ fc ∈ (s.ports p).foreignMasters,
      qualify c a p fc = qualify c b p fc) :
    (electBest c a ports s).1 = (electBest c b others t).1 ∧
      ((electBest c a ports s).1 = none → ∀ p ∈ ports, candidates c a p (s.ports p) = []) ∧
      ∀ best, (electBest c a ports s).1 = some best →
        (∃ p ∈ ports, ∃ fc ∈ candidates c a p (s.ports p), bestOf p fc = best) ∧
        ∀ q ∈ ports, ∀ other ∈ candidates c a q (s.ports q), bestOf q other ≠ best →
          0 < c.dscmp (some best.dataset) (some other.dataset) := by
  have own : ports.Nodup := List.Nodup.of_map _ distinct
  have other_own := samePorts.nodup_iff.mp own
  have orders := foreign.orders distinct
  have alike : ∀ p ∈ ports,
      (candidates c a p (s.ports p)).Perm (candidates c b p (t.ports p)) :=
    fun p listed => candidates_perm (sameForeign p listed) (sameAge p listed)
  have perm := contenders_perm samePorts alike
  have none_iff := electBest_none (c := c) (a := a) (s := s) own
  have again_none_iff := electBest_none (c := c) (a := b) (s := t) other_own
  refine ⟨?_, ?_, ?_⟩
  · cases elected : (electBest c a ports s).1 with
    | none =>
      have empty := none_iff.mp elected
      rw [empty] at perm
      exact (again_none_iff.mpr perm.nil_eq.symm).symm
    | some best =>
      cases again : (electBest c b others t).1 with
      | none =>
        rw [again_none_iff.mp again] at perm
        have nobody := none_iff.mpr perm.eq_nil
        rw [elected] at nobody
        cases nobody
      | some other =>
        have first := electBest_wins orders (fun _ stands => stands) own elected
        have second := electBest_wins orders
          (fun _ stands => perm.mem_iff.mpr stands) other_own again
        have same := orders.unique (fun _ stands => perm.mem_iff.mpr stands)
          (first.perm perm) second
        rw [same]
  · intro nobody p listed
    have empty := none_iff.mp nobody
    apply List.eq_nil_iff_forall_not_mem.mpr
    intro fc member
    have stands : bestOf p fc ∈ (contenders c a ports s).flatten :=
      mem_contenders.mpr ⟨p, listed, fc, member, rfl⟩
    rw [empty] at stands
    cases stands
  · intro best elected
    have wins := electBest_wins orders (fun _ stands => stands) own elected
    constructor
    · exact mem_contenders.mp wins.stands
    · intro q listed other member differ
      exact wins.beats _ (mem_contenders.mpr ⟨q, listed, other, member, rfl⟩) differ

/-- An Announce of a clock of the supplied number, its own grandmaster. -/
def announceFrom (number : UInt8) : PtpMessage :=
  let identity : ClockIdentity := Vector.replicate 8 number
  let body := { PtpMessage.blank.announce with grandmasterIdentity := identity }
  { PtpMessage.blank with
    type := .announce
    sourcePortIdentity := ⟨identity, 1⟩
    announce := body }

/-- The record of such a clock, with two announces. -/
def recordOf (id : Nat) (number : UInt8) : ForeignClock :=
  let messages : List Stored := [⟨2 * id, announceFrom number⟩, ⟨2 * id + 1, announceFrom number⟩]
  let identity : ClockIdentity := Vector.replicate 8 number
  let sender : PortIdentity := ⟨identity, 1⟩
  { id := id
    messages := messages
    nMessages := 2
    dataset := ⟨0, identity, ⟨0, 0, 0⟩, 0, 0, 0, sender, sender⟩ }

/-- A boundary clock with two ports. -/
def smallClock : Clock where
  order := .little
  type := .boundary
  clockIdentity := Vector.replicate 8 9
  domainNumber := 0
  nports := 2
  setup := fun _ => {}

/-- The clock with the supplied records on its two ports. -/
def hearing (first second : List ForeignClock) : ClockState :=
  let s := clockOpen smallClock ⟨128, ⟨248, 254, 65535⟩, 128⟩ 37 160 false
  (s.withPort 1 fun port => { port with foreignMasters := first }).withPort 2 fun port =>
    { port with foreignMasters := second }

theorem election_order_three :
    (electBest smallClock {} [1, 2] (hearing [recordOf 0 7, recordOf 1 5] [recordOf 2 6])).1 =
      (electBest smallClock {} [2, 1] (hearing [recordOf 1 5, recordOf 0 7] [recordOf 2 6])).1 :=
  (@election_order smallClock {} {} [1, 2] [2, 1]
    (hearing [recordOf 0 7, recordOf 1 5] [recordOf 2 6])
    (hearing [recordOf 1 5, recordOf 0 7] [recordOf 2 6])
    (by decide) ⟨by decide, by decide, by decide⟩ (by decide) (by decide) (by decide)).1

end LinuxPtp
