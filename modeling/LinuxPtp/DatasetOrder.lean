import LinuxPtp.Dataset

/-!
# The comparison of data sets on different hosts

A comparison that does not depend on the host takes clock identities as byte strings, and a port
identity as its clock identity and then its port number as a number. `memcmp` takes the octets of
a port number as they lie in memory, which on a little endian host is not the order of numbers.
Which of two data sets is the better one then depends on the host, for some port numbers above
255 of ports of one clock.
-/

namespace LinuxPtp

open Octets Std

/-! ## Verdicts -/

/-- What is said of two things in their order, and what if they are equal. -/
def verdict (less more : Int) (relation : Ordering) (equal : Int := 0) : Int :=
  match relation with
  | .lt => less
  | .eq => equal
  | .gt => more

/-- A comparison by two criteria, the second where the first one does not decide. -/
theorem verdict_then (less more : Int) (relation rest : Ordering) (equal : Int) :
    verdict less more (relation.then rest) equal =
      verdict less more relation (verdict less more rest equal) := by
  cases relation <;> rfl

/-- Different words for the three cases tell them apart. -/
theorem verdict_inj {less more : Int} (differ : less ≠ more) (first : less ≠ 0) (second : more ≠ 0)
    {relation other : Ordering} (same : verdict less more relation = verdict less more other) :
    relation = other := by
  cases relation <;> cases other <;> simp_all [verdict, eq_comm]

/-- `memcmp` finds the order of byte strings. -/
theorem memcmp_verdict {as bs : List UInt8} (size : as.length = bs.length) :
    memcmp as bs = verdict (-1) 1 (compare as bs) := by
  induction as generalizing bs with
  | nil =>
    rw [List.length_eq_zero_iff.mp size.symm]
    rfl
  | cons a as inductionHypothesis =>
    cases bs with
    | nil => cases size
    | cons b bs =>
      have rest := inductionHypothesis (Nat.succ.inj size)
      rw [List.compare_cons_cons, memcmp]
      by_cases less : a < b
      · simp [compareOfLessAndEq, compare, less, verdict]
      · by_cases same : a = b
        · subst same
          simpa [verdict] using rest
        · have more : b < a := by
            rw [← UInt8.toNat_inj] at same
            rw [UInt8.lt_iff_toNat_lt] at less ⊢
            omega
          simp [compareOfLessAndEq, compare, less, same, more, verdict]

/-- A comparison of byte strings, and what follows if they are equal. -/
theorem memcmp_step {as bs : List UInt8} (size : as.length = bs.length) (less more equal : Int) :
    (if memcmp as bs < 0 then less else if memcmp as bs > 0 then more else equal) =
      verdict less more (compare as bs) equal := by
  rw [memcmp_verdict size]
  cases compare as bs <;> rfl

/-- A comparison of a field, and what follows if it is equal. -/
theorem field_step {α : Type*} [Ord α] [LT α] [LE α] [DecidableLT α] [LawfulOrderOrd α]
    [LawfulOrderLT α] (less more equal : Int) (x y : α) :
    (if x < y then less else if x > y then more else equal) =
      verdict less more (compare x y) equal := by
  have below : x < y ↔ compare x y = .lt := compare_eq_lt.symm
  have above : x > y ↔ compare x y = .gt := compare_eq_gt.symm
  simp only [below, above]
  cases compare x y <;> rfl

/-! ## Comparisons relative to one of port identities -/

/-- Clock identities as byte strings. -/
def compareIdentity (a b : ClockIdentity) : Ordering := compare a.toList b.toList

section Relative

variable (ports : PortIdentity → PortIdentity → Ordering)

/-- The second part of the comparison. -/
def compareRoutes (a b : Dataset) : Int :=
  let A := a.stepsRemoved.toNat
  let B := b.stepsRemoved.toNat
  if A + 1 < B then aBetter
  else if B + 1 < A then bBetter
  else if A < B then verdict aBetter aBetterTopo (ports b.receiver b.sender)
  else if A > B then verdict bBetter bBetterTopo (ports a.receiver a.sender)
  else verdict aBetterTopo bBetterTopo
    ((ports a.sender b.sender).then (compare a.receiver.portNumber b.receiver.portNumber))

/-- What IEEE 1588 compares of different grandmasters. -/
def compareOrdinaryFields (a b : Dataset) : Ordering :=
  (compare a.priority1 b.priority1).then <|
  (compare a.quality.clockClass b.quality.clockClass).then <|
  (compare a.quality.clockAccuracy b.quality.clockAccuracy).then <|
  (compare a.quality.offsetScaledLogVariance b.quality.offsetScaledLogVariance).then <|
  (compare a.priority2 b.priority2).then <|
  compareIdentity a.identity b.identity

/-- The comparison of IEEE 1588. -/
def compareOrdinary (a b : Dataset) : Int :=
  if a.identity = b.identity then compareRoutes ports a b
  else verdict aBetter bBetter (compareOrdinaryFields a b)

/-- What the telecom profiles compare first. -/
def compareTelecomFields (a b : Dataset) : Ordering :=
  (compare a.quality.clockClass b.quality.clockClass).then <|
  (compare a.quality.clockAccuracy b.quality.clockAccuracy).then <|
  (compare a.quality.offsetScaledLogVariance b.quality.offsetScaledLogVariance).then <|
  (compare a.priority2 b.priority2).then <|
  compare a.localPriority b.localPriority

/-- The comparison of the telecom profiles. -/
def compareTelecom (a b : Dataset) : Int :=
  verdict aBetter bBetter (compareTelecomFields a b) <|
    if a.quality.clockClass ≤ 127 ∨ a.identity = b.identity then compareRoutes ports a b
    else verdict aBetter bBetter (compareIdentity a.identity b.identity)

end Relative

/-- Port identities, the clock identity first and then the port number. -/
def comparePortIdentity (x y : PortIdentity) : Ordering :=
  (compareIdentity x.clockIdentity y.clockIdentity).then (compare x.portNumber y.portNumber)

/-- What `dscmp` is to return on every host. -/
def referenceDscmp : Option Dataset → Option Dataset → Int :=
  comparePointers (compareOrdinary comparePortIdentity)

/-- What `telecom_dscmp` is to return on every host. -/
def referenceTelecomDscmp : Option Dataset → Option Dataset → Int :=
  comparePointers (compareTelecom comparePortIdentity)

/-! ## The comparisons of a host -/

/-- Port identities as `memcmp` finds them on a host. -/
def compareOctets (order : ByteOrder) (x y : PortIdentity) : Ordering :=
  compare (x.octets order) (y.octets order)

section Hosts

variable (order : ByteOrder) (a b : Dataset)

/-- Identities compare as equal only if they are the same. -/
theorem compareIdentity_eq {x y : ClockIdentity} : compareIdentity x y = .eq ↔ x = y := by
  rw [compareIdentity, LawfulEqOrd.compare_eq_iff_eq, Vector.toList_inj]

/-- The topology part of the code is that of the reference, with the identities of ports compared by
their octets. -/
theorem dscmp2_routes : dscmp2 order a b = compareRoutes (compareOctets order) a b := by
  have sides (x y : PortIdentity) : (x.octets order).length = (y.octets order).length := by simp
  unfold dscmp2 compareRoutes compareOctets
  dsimp only
  rw [memcmp_step (sides _ _), memcmp_step (sides _ _), memcmp_step (sides _ _), verdict_then]
  congr 5
  exact field_step ..

/-- The last word of both comparisons. -/
theorem identity_step {x y : ClockIdentity} (differ : x ≠ y) :
    (if memcmp x.toList y.toList < 0 then aBetter else bBetter) =
      verdict aBetter bBetter (compareIdentity x y) := by
  have unequal := mt compareIdentity_eq.mp differ
  rw [memcmp_verdict (by simp)]
  unfold compareIdentity at unequal ⊢
  cases relation : compare x.toList y.toList with
  | eq => exact absurd relation unequal
  | lt => rfl
  | gt => rfl

/-- The same for `dscmp` of two data sets. -/
theorem dscmpBoth_ordinary : dscmpBoth order a b = compareOrdinary (compareOctets order) a b := by
  unfold dscmpBoth compareOrdinary compareOrdinaryFields
  simp only [identity_memcmp_eq_zero, dscmp2_routes]
  split
  · rfl
  · next differ => simp only [identity_step differ, field_step, verdict_then]

/-- The same for `telecom_dscmp` of two data sets. -/
theorem telecomDscmpBoth_telecom :
    telecomDscmpBoth order a b = compareTelecom (compareOctets order) a b := by
  unfold telecomDscmpBoth compareTelecom compareTelecomFields
  simp only [identity_memcmp_eq_zero, dscmp2_routes, field_step, verdict_then]
  congr 5
  by_cases low : a.quality.clockClass ≤ 127
  · simp [low]
  · by_cases same : a.identity = b.identity
    · simp [low, same]
    · simp [low, same, identity_step same]

/-! ## The two sides exchanged -/

/-- Comparisons of port identities for which exchanging the sides exchanges the result. -/
def Oriented (ports : PortIdentity → PortIdentity → Ordering) : Prop :=
  ∀ x y, ports y x = (ports x y).swap

/-- Octets compare the other way round the other way round. -/
theorem compareOctets_oriented : Oriented (compareOctets order) :=
  fun _ _ => OrientedOrd.eq_swap

/-- Identities compare the other way round the other way round. -/
theorem compareIdentity_swap (x y : ClockIdentity) :
    compareIdentity y x = (compareIdentity x y).swap :=
  OrientedOrd.eq_swap

/-- The verdict on a comparison turns with it. -/
theorem verdict_swap (relation : Ordering) (equal : Int) :
    verdict aBetter bBetter relation.swap (-equal) = -verdict aBetter bBetter relation equal := by
  cases relation <;> rfl

/-- So does the comparison of the fields that `dscmp` looks at. -/
theorem compareOrdinaryFields_swap :
    compareOrdinaryFields b a = (compareOrdinaryFields a b).swap := by
  unfold compareOrdinaryFields
  simp only [Ordering.swap_then, ← compareIdentity_swap, ← OrientedOrd.eq_swap]

/-- So does the comparison of the fields that `telecom_dscmp` looks at. -/
theorem compareTelecomFields_swap :
    compareTelecomFields b a = (compareTelecomFields a b).swap := by
  unfold compareTelecomFields
  simp only [Ordering.swap_then, ← OrientedOrd.eq_swap]

section Exchange

variable {ports : PortIdentity → PortIdentity → Ordering} (oriented : Oriented ports)

include oriented in
/-- So does the comparison of the routes, whatever order the ports have that is oriented. -/
theorem compareRoutes_swap : compareRoutes ports b a = -compareRoutes ports a b := by
  have numbers : compare b.receiver.portNumber a.receiver.portNumber =
      (compare a.receiver.portNumber b.receiver.portNumber).swap := OrientedOrd.eq_swap
  unfold compareRoutes
  dsimp only
  rw [oriented a.sender b.sender, numbers, ← Ordering.swap_then]
  generalize (ports a.sender b.sender).then _ = relation
  generalize ports b.receiver b.sender = farther
  generalize ports a.receiver a.sender = nearer
  have words : verdict aBetterTopo bBetterTopo relation.swap =
      -verdict aBetterTopo bBetterTopo relation := by cases relation <;> rfl
  have first : verdict aBetter aBetterTopo nearer = -verdict bBetter bBetterTopo nearer := by
    cases nearer <;> rfl
  have second : verdict bBetter bBetterTopo farther = -verdict aBetter aBetterTopo farther := by
    cases farther <;> rfl
  rw [words, first, second]
  unfold aBetter bBetter
  split_ifs <;> omega

include oriented in
/-- Data sets compare the other way round the other way round. -/
theorem compareOrdinary_swap : compareOrdinary ports b a = -compareOrdinary ports a b := by
  unfold compareOrdinary
  rw [compareRoutes_swap a b oriented, compareOrdinaryFields_swap a b]
  by_cases same : a.identity = b.identity
  · simp [same]
  · simp only [same, Ne.symm same, if_false]
    exact verdict_swap _ 0

include oriented in
/-- The same for telecom profiles. -/
theorem compareTelecom_swap : compareTelecom ports b a = -compareTelecom ports a b := by
  unfold compareTelecom
  rw [compareRoutes_swap a b oriented, compareTelecomFields_swap a b,
    compareIdentity_swap a.identity b.identity]
  cases relation : compareTelecomFields a b with
  | lt => rfl
  | gt => rfl
  | eq =>
    have classes : a.quality.clockClass = b.quality.clockClass := by
      unfold compareTelecomFields at relation
      rw [Ordering.then_eq_eq] at relation
      exact LawfulEqOrd.compare_eq_iff_eq.mp relation.1
    have words := verdict_swap (compareIdentity a.identity b.identity) 0
    rw [classes]
    simp only [@eq_comm _ b.identity]
    split_ifs
    · rfl
    · exact words

end Exchange

/-- Comparisons of two data sets, exchanged, give exchanged results for pointers as well. -/
theorem comparePointers_swap {compare : Dataset → Dataset → Int}
    (swap : ∀ a b, compare b a = -compare a b) (a b : Option Dataset) :
    comparePointers compare b a = -comparePointers compare a b := by
  cases a with
  | none => cases b <;> rfl
  | some a =>
    cases b with
    | none => rfl
    | some b => exact swap a b

end Hosts

/-! ## Which comparisons depend on the host -/

/-- A number whose octets are exchanged. -/
def turned (number : UInt16) : Nat := number.toNat % 256 * 256 + number.toNat / 256

/-- Of two ports of one clock, the one with the smaller number also has it after its octets are
exchanged. -/
def PortIdentity.Alike (x y : PortIdentity) : Prop :=
  x.clockIdentity = y.clockIdentity →
    (turned x.portNumber < turned y.portNumber ↔ x.portNumber < y.portNumber)

instance (x y : PortIdentity) : Decidable (x.Alike y) := inferInstanceAs (Decidable (_ → _))

/-- The port identities that decide between data sets of one grandmaster. -/
def Dataset.tie (a b : Dataset) : Option (PortIdentity × PortIdentity) :=
  let A := a.stepsRemoved.toNat
  let B := b.stepsRemoved.toNat
  if A + 1 = B then some (b.receiver, b.sender)
  else if B + 1 = A then some (a.receiver, a.sender)
  else if A = B then some (a.sender, b.sender)
  else none

/-- These port identities are told apart alike on all hosts. -/
def Dataset.TieAlike (a b : Dataset) : Prop := ∀ pair ∈ a.tie b, pair.1.Alike pair.2

/-- `dscmp` tells these port identities apart alike on all hosts, if it comes to them. -/
def OrdinaryAlike : Option Dataset → Option Dataset → Prop
  | some a, some b => a.identity = b.identity → a.TieAlike b
  | _, _ => True

/-- `telecom_dscmp` tells them apart alike on all hosts, if it comes to them. -/
def TelecomAlike : Option Dataset → Option Dataset → Prop
  | some a, some b => a.quality = b.quality → a.priority2 = b.priority2 →
      a.localPriority = b.localPriority →
      a.quality.clockClass ≤ 127 ∨ a.identity = b.identity → a.TieAlike b
  | _, _ => True

/-- Octet strings of one length compare by their beginnings first. -/
theorem compare_append {as bs rest other : List UInt8} (size : as.length = bs.length) :
    compare (as ++ rest) (bs ++ other) = (compare as bs).then (compare rest other) := by
  induction as generalizing bs with
  | nil =>
    rw [List.length_eq_zero_iff.mp size.symm]
    rfl
  | cons a as inductionHypothesis =>
    cases bs with
    | nil => cases size
    | cons b bs =>
      have rest := inductionHypothesis (Nat.succ.inj size)
      rw [List.cons_append, List.cons_append, List.compare_cons_cons, List.compare_cons_cons, rest,
        Ordering.then_assoc]

/-- Two octets are compared like the number that they give, the first being the higher one. -/
theorem compare_pair (high low high' low' : UInt8) :
    compare [high, low] [high', low'] =
      compare (high.toNat * 256 + low.toNat) (high'.toNat * 256 + low'.toNat) := by
  have first : low.toNat < 2 ^ 8 := low.toNat_lt
  have second : low'.toNat < 2 ^ 8 := low'.toNat_lt
  rw [List.compare_cons_cons, List.compare_cons_cons]
  cases highs : compare high high' with
  | lt =>
    have less := UInt8.lt_iff_toNat_lt.mp (compare_eq_lt.mp highs)
    exact (Nat.compare_eq_lt.mpr (by omega)).symm
  | gt =>
    have more := UInt8.lt_iff_toNat_lt.mp (compare_eq_gt.mp highs)
    exact (Nat.compare_eq_gt.mpr (by omega)).symm
  | eq =>
    have same := LawfulEqOrd.compare_eq_iff_eq.mp highs
    subst same
    cases lows : compare low low' with
    | lt =>
      have less := UInt8.lt_iff_toNat_lt.mp (compare_eq_lt.mp lows)
      exact (Nat.compare_eq_lt.mpr (by omega)).symm
    | gt =>
      have more := UInt8.lt_iff_toNat_lt.mp (compare_eq_gt.mp lows)
      exact (Nat.compare_eq_gt.mpr (by omega)).symm
    | eq =>
      have equal := LawfulEqOrd.compare_eq_iff_eq.mp lows
      subst equal
      exact (Nat.compare_eq_eq.mpr rfl).symm

/-- Numbers compare as their values. -/
theorem compare_number (number other : UInt16) :
    compare number other = compare number.toNat other.toNat := by
  cases relation : compare number other with
  | lt => exact (Nat.compare_eq_lt.mpr (UInt16.lt_iff_toNat_lt.mp (compare_eq_lt.mp relation))).symm
  | gt => exact (Nat.compare_eq_gt.mpr (UInt16.lt_iff_toNat_lt.mp (compare_eq_gt.mp relation))).symm
  | eq =>
    rw [LawfulEqOrd.compare_eq_iff_eq.mp relation]
    exact (Nat.compare_eq_eq.mpr rfl).symm

/-- The octets of a number in the order of the network compare as the number; in the other order
they compare as the number with its octets turned. -/
theorem compare_halfword (number other : UInt16) :
    compare (halfword .big number) (halfword .big other) = compare number other ∧
      compare (halfword .little number) (halfword .little other) =
        compare (turned number) (turned other) := by
  have low (number : UInt16) : number.toUInt8.toNat = number.toNat % 256 := UInt16.toNat_toUInt8 _
  have high (number : UInt16) : (number >>> 8).toNat % 256 = number.toNat / 256 := by
    have bound : number.toNat < 2 ^ 16 := number.toNat_lt
    simp [UInt16.toNat_shiftRight, Nat.shiftRight_eq_div_pow]
    omega
  simp only [halfword, compare_pair, low, high, compare_number, turned]
  constructor
  · congr 1 <;> omega
  · trivial

/-- Identities of ports compare by the clock first and by the octets of the number then. -/
theorem compareOctets_eq (order : ByteOrder) (x y : PortIdentity) :
    compareOctets order x y = (compareIdentity x.clockIdentity y.clockIdentity).then
      (compare (halfword order x.portNumber) (halfword order y.portNumber)) :=
  compare_append (by simp)

/-- On a big-endian host that is the order of the port numbers. -/
theorem compareOctets_big (x y : PortIdentity) : compareOctets .big x y = comparePortIdentity x y := by
  rw [compareOctets_eq, (compare_halfword _ _).1]
  rfl

/-- Pairs of numbers that are equal alike are ordered alike if the first are less alike. -/
theorem compare_alike {m n k l : Nat} (equal : m = n ↔ k = l) :
    compare m n = compare k l ↔ (m < n ↔ k < l) := by
  rcases Nat.lt_trichotomy m n with less | same | more
  · rw [Nat.compare_eq_lt.mpr less, eq_comm, Nat.compare_eq_lt]
    simp [less]
  · have also := equal.mp same
    subst same also
    simp
  · rw [Nat.compare_eq_gt.mpr more, eq_comm, Nat.compare_eq_gt]
    omega

/-- Turning octets loses nothing. -/
theorem turned_inj (number other : UInt16) :
    turned number = turned other ↔ number.toNat = other.toNat := by
  have first : number.toNat < 2 ^ 16 := number.toNat_lt
  have second : other.toNat < 2 ^ 16 := other.toNat_lt
  unfold turned
  omega

/-- A little endian host finds the order of port identities just if they are alike. -/
theorem compareOctets_little (x y : PortIdentity) :
    compareOctets .little x y = comparePortIdentity x y ↔ x.Alike y := by
  rw [compareOctets_eq, (compare_halfword _ _).2]
  unfold comparePortIdentity PortIdentity.Alike
  by_cases same : x.clockIdentity = y.clockIdentity
  · rw [compareIdentity_eq.mpr same, compare_number, UInt16.lt_iff_toNat_lt]
    simpa [same] using compare_alike (turned_inj x.portNumber y.portNumber)
  · have unequal := mt compareIdentity_eq.mp same
    cases relation : compareIdentity x.clockIdentity y.clockIdentity with
    | eq => exact absurd relation unequal
    | lt => simp [same]
    | gt => simp [same]

/-- Other comparisons of port identities make a difference between data sets of one grandmaster
just if they differ on those that decide. -/
theorem compareRoutes_congr {ports other : PortIdentity → PortIdentity → Ordering}
    (exact : ∀ x y, ports x y = .eq ↔ x = y) (also : ∀ x y, other x y = .eq ↔ x = y)
    (a b : Dataset) : compareRoutes ports a b = compareRoutes other a b ↔
      ∀ pair ∈ a.tie b, ports pair.1 pair.2 = other pair.1 pair.2 := by
  have alone (less more : Int) (differ : less ≠ more) (first : less ≠ 0) (second : more ≠ 0)
      (x y : PortIdentity) : verdict less more (ports x y) = verdict less more (other x y) ↔
        ports x y = other x y :=
    ⟨verdict_inj differ first second, fun same => by rw [same]⟩
  have followed (x y : PortIdentity) (rest : Ordering) :
      verdict aBetterTopo bBetterTopo ((ports x y).then rest) =
        verdict aBetterTopo bBetterTopo ((other x y).then rest) ↔ ports x y = other x y := by
    constructor
    · intro same
      have chain := verdict_inj (by decide) (by decide) (by decide) same
      by_cases equal : x = y
      · rw [(exact x y).mpr equal, (also x y).mpr equal]
      · have one := mt (exact x y).mp equal
        have two := mt (also x y).mp equal
        cases left : ports x y <;> cases right : other x y <;> simp_all
    · intro same
      rw [same]
  unfold compareRoutes Dataset.tie
  dsimp only
  generalize a.stepsRemoved.toNat = A
  generalize b.stepsRemoved.toNat = B
  rcases Nat.lt_trichotomy A B with less | same | more
  · by_cases next : A + 1 = B
    · subst next
      simpa [show ¬ A + 1 + 1 < A by omega] using alone aBetter aBetterTopo (by decide) (by decide)
        (by decide) b.receiver b.sender
    · simp [next, show A + 1 < B by omega, show ¬ B + 1 = A by omega, show ¬ A = B by omega]
  · subst same
    simpa using followed a.sender b.sender _
  · by_cases next : B + 1 = A
    · subst next
      simpa [show ¬ B + 1 + 1 < B by omega, show ¬ B + 1 < B by omega,
        show ¬ B + 1 + 1 = B by omega] using
        alone bBetter bBetterTopo (by decide) (by decide) (by decide) a.receiver a.sender
    · simp [next, show B + 1 < A by omega, show ¬ A + 1 < B by omega, show ¬ A + 1 = B by omega,
        show ¬ A = B by omega]

/-- Octets compare as equal only if the identities are the same, on either host. -/
theorem compareOctets_exact (order : ByteOrder) (x y : PortIdentity) :
    compareOctets order x y = .eq ↔ x = y := by
  rw [compareOctets, LawfulEqOrd.compare_eq_iff_eq]
  constructor
  · exact PortIdentity.octets_inj order
  · exact congrArg _

/-- Routes are compared alike on all hosts just if what decides is told apart alike. -/
theorem routes_alike (a b : Dataset) :
    compareRoutes (compareOctets .little) a b = compareRoutes comparePortIdentity a b ↔
      a.TieAlike b := by
  have numbers (x y : PortIdentity) : comparePortIdentity x y = .eq ↔ x = y := by
    rw [← compareOctets_big, compareOctets_exact]
  rw [compareRoutes_congr (compareOctets_exact .little) numbers]
  unfold Dataset.TieAlike
  simp only [compareOctets_little]

/-- A big-endian host computes the reference. -/
theorem dscmp_big (a b : Option Dataset) : dscmp .big a b = referenceDscmp a b := by
  have same : compareOctets .big = comparePortIdentity := funext fun x => funext <| compareOctets_big x
  have both : dscmpBoth .big = compareOrdinary comparePortIdentity :=
    funext fun a => funext fun b => by rw [dscmpBoth_ordinary, same]
  rw [dscmp, referenceDscmp, both]

/-- A big-endian host computes the reference for telecom profiles. -/
theorem telecomDscmp_big (a b : Option Dataset) :
    telecomDscmp .big a b = referenceTelecomDscmp a b := by
  have same : compareOctets .big = comparePortIdentity := funext fun x => funext <| compareOctets_big x
  have both : telecomDscmpBoth .big = compareTelecom comparePortIdentity :=
    funext fun a => funext fun b => by rw [telecomDscmpBoth_telecom, same]
  rw [telecomDscmp, referenceTelecomDscmp, both]

/-- A little-endian host computes the reference exactly where the port numbers do not come to be
compared, or compare alike when they are turned. -/
theorem dscmp_little (a b : Option Dataset) :
    dscmp .little a b = referenceDscmp a b ↔ OrdinaryAlike a b := by
  cases a with
  | none => cases b <;> simp [dscmp, referenceDscmp, comparePointers, OrdinaryAlike]
  | some a =>
    cases b with
    | none => simp [dscmp, referenceDscmp, comparePointers, OrdinaryAlike]
    | some b =>
      simp only [dscmp, referenceDscmp, comparePointers, OrdinaryAlike, dscmpBoth_ordinary]
      unfold compareOrdinary
      by_cases same : a.identity = b.identity
      · simp [same, routes_alike]
      · simp [same]

/-- The same for telecom profiles. -/
theorem telecomDscmp_little (a b : Option Dataset) :
    telecomDscmp .little a b = referenceTelecomDscmp a b ↔ TelecomAlike a b := by
  cases a with
  | none => cases b <;> simp [telecomDscmp, referenceTelecomDscmp, comparePointers, TelecomAlike]
  | some a =>
    cases b with
    | none => simp [telecomDscmp, referenceTelecomDscmp, comparePointers, TelecomAlike]
    | some b =>
      have equal : compareTelecomFields a b = .eq ↔ a.quality = b.quality ∧
          a.priority2 = b.priority2 ∧ a.localPriority = b.localPriority := by
        obtain ⟨_, _, ⟨_, _, _⟩, _, _, _, _, _⟩ := a
        obtain ⟨_, _, ⟨_, _, _⟩, _, _, _, _, _⟩ := b
        simp [compareTelecomFields, Ordering.then_eq_eq, and_assoc]
      simp only [telecomDscmp, referenceTelecomDscmp, comparePointers, TelecomAlike,
        telecomDscmpBoth_telecom]
      unfold compareTelecom
      cases relation : compareTelecomFields a b with
      | eq =>
        obtain ⟨quality, priority2, localPriority⟩ := equal.mp relation
        simp only [quality, priority2, localPriority, verdict, forall_true_left]
        split_ifs with last
        · simp [last, routes_alike]
        · simp [last]
      | lt =>
        have unequal := mt equal.mpr (by simp [relation])
        simp only [verdict]
        tauto
      | gt =>
        have unequal := mt equal.mpr (by simp [relation])
        simp only [verdict]
        tauto

/-! ## Agreement -/

/-- A comparison gives what it is to give on every host, whichever data set comes first, and no
two hosts disagree. -/
structure HostFree (compare : ByteOrder → Option Dataset → Option Dataset → Int)
    (reference : Option Dataset → Option Dataset → Int) (a b : Option Dataset) : Prop where
  result : ∀ order, compare order a b = reference a b
  exchanged : ∀ order, compare order b a = -compare order a b
  agreed : ∀ order other, compare order a b = compare other a b

/-- It is enough to look at little endian hosts. -/
theorem hostFree_iff {compare : ByteOrder → Option Dataset → Option Dataset → Int}
    {reference : Option Dataset → Option Dataset → Int} {a b : Option Dataset}
    (big : compare .big a b = reference a b)
    (swap : ∀ order, compare order b a = -compare order a b) :
    HostFree compare reference a b ↔ compare .little a b = reference a b := by
  constructor
  · exact fun free => free.result .little
  · intro little
    have result : ∀ order, compare order a b = reference a b := by
      intro order
      cases order with
      | little => exact little
      | big => exact big
    exact ⟨result, swap, fun order other => (result order).trans (result other).symm⟩

/-- Data sets are compared alike on all hosts if and only if the comparison does not come down to
port identities of one clock that are ordered otherwise when the octets of their port numbers are
exchanged.

Proof: a big-endian host compares as the standard says, and both directions of a comparison turn
together. A little-endian host differs only where the comparison comes down to port numbers, which
it compares by their octets in memory, the least significant one first. -/
theorem comparison_host_free (a b : Option Dataset) :
    (HostFree dscmp referenceDscmp a b ↔ OrdinaryAlike a b) ∧
      (HostFree telecomDscmp referenceTelecomDscmp a b ↔ TelecomAlike a b) := by
  constructor
  · rw [hostFree_iff (dscmp_big a b) fun order => ?_]
    · exact dscmp_little a b
    · apply comparePointers_swap
      intro a b
      rw [dscmpBoth_ordinary, dscmpBoth_ordinary,
        compareOrdinary_swap a b (compareOctets_oriented order)]
  · rw [hostFree_iff (telecomDscmp_big a b) fun order => ?_]
    · exact telecomDscmp_little a b
    · apply comparePointers_swap
      intro a b
      rw [telecomDscmpBoth_telecom, telecomDscmpBoth_telecom,
        compareTelecom_swap a b (compareOctets_oriented order)]

/-- The announce of a grandmaster that a port of a boundary clock passes on, received on the first
port of another clock. -/
def passedOn (port : UInt16) : Dataset :=
  let grandmaster : ClockIdentity := Vector.replicate 8 1
  let boundary : ClockIdentity := Vector.replicate 8 2
  let here : ClockIdentity := Vector.replicate 8 3
  ⟨128, grandmaster, ⟨6, 32, 20061⟩, 128, 128, 1, ⟨boundary, port⟩, ⟨here, 1⟩⟩

/-- A little endian host prefers port 256 to port 255. -/
theorem passedOn_disagree :
    dscmp .little (some (passedOn 255)) (some (passedOn 256)) = bBetterTopo ∧
      dscmp .big (some (passedOn 255)) (some (passedOn 256)) = aBetterTopo ∧
      telecomDscmp .little (some (passedOn 255)) (some (passedOn 256)) = bBetterTopo ∧
      telecomDscmp .big (some (passedOn 255)) (some (passedOn 256)) = aBetterTopo ∧
      ¬ HostFree dscmp referenceDscmp (some (passedOn 255)) (some (passedOn 256)) ∧
      ¬ HostFree telecomDscmp referenceTelecomDscmp
        (some (passedOn 255)) (some (passedOn 256)) := by
  refine ⟨by decide, by decide, by decide, by decide, ?_, ?_⟩
  · intro free
    exact absurd (free.agreed .little .big) (by decide)
  · intro free
    exact absurd (free.agreed .little .big) (by decide)

end LinuxPtp
