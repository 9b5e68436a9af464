import LinuxPtp.Octets
import Mathlib.Data.List.Lex

/-!
# Comparing data sets

`bmc.c` and `telecom.c`. Identities are compared as `memcmp` compares the memory
they lie in, so that the octets of a port number come in the order of the host. A
positive result says that the first data set is the better one.

Both comparisons follow the source branch by branch, with the same results for a missing data set,
for the same clock and for topology. What the branches mean is not stated here but found in the
modules that order data sets.
-/

namespace LinuxPtp

open Octets

/-- `struct ClockIdentity`. -/
abbrev ClockIdentity := Vector UInt8 8

/-- `struct PortIdentity`. -/
structure PortIdentity where
  clockIdentity : ClockIdentity
  portNumber : UInt16
deriving DecidableEq

/-- The octets of a 16-bit number in memory. -/
def halfword (order : ByteOrder) (number : UInt16) : List UInt8 :=
  let low := number.toUInt8
  let high := (number >>> 8).toUInt8
  match order with
  | .little => [low, high]
  | .big => [high, low]

/-- The octets of a port identity in memory. -/
def PortIdentity.octets (order : ByteOrder) (identity : PortIdentity) : List UInt8 :=
  identity.clockIdentity.toList ++ halfword order identity.portNumber

/-- `struct ClockQuality`. -/
structure ClockQuality where
  clockClass : UInt8
  clockAccuracy : UInt8
  offsetScaledLogVariance : UInt16
deriving DecidableEq

/-- `struct dataset`. -/
structure Dataset where
  priority1 : UInt8
  identity : ClockIdentity
  quality : ClockQuality
  priority2 : UInt8
  localPriority : UInt8
  stepsRemoved : UInt16
  sender : PortIdentity
  receiver : PortIdentity
deriving DecidableEq

def aBetterTopo : Int := 2
def aBetter : Int := 1
def bBetter : Int := -1
def bBetterTopo : Int := -2

/-- `memcmp` of two blocks of one size. -/
def memcmp : List UInt8 → List UInt8 → Int
  | a :: as, b :: bs => if a < b then -1 else if b < a then 1 else memcmp as bs
  | _, _ => 0

section Comparison

variable (order : ByteOrder)

/-- `dscmp2`. -/
def dscmp2 (a b : Dataset) : Int :=
  let A := a.stepsRemoved.toNat
  let B := b.stepsRemoved.toNat
  if A + 1 < B then aBetter
  else if B + 1 < A then bBetter
  else if A < B then
    let diff := memcmp (b.receiver.octets order) (b.sender.octets order)
    if diff < 0 then aBetter else if diff > 0 then aBetterTopo else 0
  else if A > B then
    let diff := memcmp (a.receiver.octets order) (a.sender.octets order)
    if diff < 0 then bBetter else if diff > 0 then bBetterTopo else 0
  else
    let diff := memcmp (a.sender.octets order) (b.sender.octets order)
    if diff < 0 then aBetterTopo
    else if diff > 0 then bBetterTopo
    else if a.receiver.portNumber < b.receiver.portNumber then aBetterTopo
    else if a.receiver.portNumber > b.receiver.portNumber then bBetterTopo
    else 0

/-- The part of `dscmp` for two data sets. -/
def dscmpBoth (a b : Dataset) : Int :=
  let diff := memcmp a.identity.toList b.identity.toList
  if diff = 0 then dscmp2 order a b
  else if a.priority1 < b.priority1 then aBetter
  else if a.priority1 > b.priority1 then bBetter
  else if a.quality.clockClass < b.quality.clockClass then aBetter
  else if a.quality.clockClass > b.quality.clockClass then bBetter
  else if a.quality.clockAccuracy < b.quality.clockAccuracy then aBetter
  else if a.quality.clockAccuracy > b.quality.clockAccuracy then bBetter
  else if a.quality.offsetScaledLogVariance < b.quality.offsetScaledLogVariance then aBetter
  else if a.quality.offsetScaledLogVariance > b.quality.offsetScaledLogVariance then bBetter
  else if a.priority2 < b.priority2 then aBetter
  else if a.priority2 > b.priority2 then bBetter
  else if diff < 0 then aBetter
  else bBetter

/-- The part of `telecom_dscmp` for two data sets. -/
def telecomDscmpBoth (a b : Dataset) : Int :=
  if a.quality.clockClass < b.quality.clockClass then aBetter
  else if a.quality.clockClass > b.quality.clockClass then bBetter
  else if a.quality.clockAccuracy < b.quality.clockAccuracy then aBetter
  else if a.quality.clockAccuracy > b.quality.clockAccuracy then bBetter
  else if a.quality.offsetScaledLogVariance < b.quality.offsetScaledLogVariance then aBetter
  else if a.quality.offsetScaledLogVariance > b.quality.offsetScaledLogVariance then bBetter
  else if a.priority2 < b.priority2 then aBetter
  else if a.priority2 > b.priority2 then bBetter
  else if a.localPriority < b.localPriority then aBetter
  else if a.localPriority > b.localPriority then bBetter
  else if a.quality.clockClass ≤ 127 then dscmp2 order a b
  else
    let diff := memcmp a.identity.toList b.identity.toList
    if diff = 0 then dscmp2 order a b else if diff < 0 then aBetter else bBetter

/-- What both comparisons make of missing data sets. -/
def comparePointers (compare : Dataset → Dataset → Int) : Option Dataset → Option Dataset → Int
  | none, none => 0
  | some _, none => aBetter
  | none, some _ => bBetter
  | some a, some b => compare a b

/-- `dscmp`. -/
def dscmp : Option Dataset → Option Dataset → Int := comparePointers (dscmpBoth order)

/-- `telecom_dscmp`. -/
def telecomDscmp : Option Dataset → Option Dataset → Int :=
  comparePointers (telecomDscmpBoth order)

end Comparison

/-! ## The order behind the comparisons -/

theorem memcmp_self (block : List UInt8) : memcmp block block = 0 := by
  induction block with
  | nil => rfl
  | cons octet rest inductionHypothesis => simp [memcmp, inductionHypothesis]

/-- `memcmp` finds the lexicographic order of octets. -/
theorem memcmp_neg {as bs : List UInt8} (size : as.length = bs.length) :
    memcmp as bs < 0 ↔ as.map UInt8.toNat < bs.map UInt8.toNat := by
  induction as generalizing bs with
  | nil =>
    cases bs with
    | nil => simp [memcmp]
    | cons => cases size
  | cons a as inductionHypothesis =>
    cases bs with
    | nil => cases size
    | cons b bs =>
      have rest := inductionHypothesis (Nat.succ.inj size)
      rw [List.map_cons, List.map_cons, List.cons_lt_cons_iff, ← rest]
      by_cases less : a < b
      · simp [memcmp, less, UInt8.lt_iff_toNat_lt.mp less]
      · by_cases more : b < a
        · have apart := UInt8.lt_iff_toNat_lt.mp more
          simp only [memcmp, less, more, if_true, if_false]
          omega
        · have same : a = b := by
            rw [UInt8.lt_iff_toNat_lt] at less more
            exact UInt8.toNat_inj.mp (by omega)
          subst same
          simp [memcmp]

theorem memcmp_eq {as bs : List UInt8} (size : as.length = bs.length) :
    memcmp as bs = 0 ↔ as = bs := by
  constructor
  · induction as generalizing bs with
    | nil =>
      intro _
      exact (List.length_eq_zero_iff.mp size.symm).symm
    | cons a as inductionHypothesis =>
      cases bs with
      | nil => cases size
      | cons b bs =>
        intro equal
        unfold memcmp at equal
        by_cases less : a < b
        · simp [less] at equal
        · by_cases more : b < a
          · simp [less, more] at equal
          · simp only [less, more, if_false] at equal
            rw [inductionHypothesis (Nat.succ.inj size) equal]
            have same : a = b := by
              rw [UInt8.lt_iff_toNat_lt] at less more
              exact UInt8.toNat_inj.mp (by omega)
            rw [same]
  · rintro rfl
    exact memcmp_self as

/-- A longer list is decided by its first part, or where that is equal by the rest. -/
theorem append_lt {as bs rest other : List Nat} (size : as.length = bs.length) :
    as ++ rest < bs ++ other ↔ as < bs ∨ as = bs ∧ rest < other := by
  induction as generalizing bs with
  | nil => simp [List.length_eq_zero_iff.mp size.symm]
  | cons a as inductionHypothesis =>
    cases bs with
    | nil => cases size
    | cons b bs =>
      simp only [List.cons_append, List.cons_lt_cons_iff, List.cons.injEq,
        inductionHypothesis (Nat.succ.inj size)]
      tauto

/-- Blocks of octets at the start of a list. -/
theorem block_lt {as bs : List UInt8} {rest other : List Nat} (size : as.length = bs.length) :
    as.map UInt8.toNat ++ rest < bs.map UInt8.toNat ++ other ↔
      memcmp as bs < 0 ∨ memcmp as bs = 0 ∧ rest < other := by
  have equal : as.map UInt8.toNat = bs.map UInt8.toNat ↔ as = bs :=
    List.map_inj_right fun _ _ => UInt8.toNat_inj.mp
  rw [append_lt (by simpa using size), memcmp_neg size, memcmp_eq size, equal]

/-- One step of a comparison field by field. -/
theorem graded_pos (x y : Nat) (rest : Int) :
    0 < (if x < y then aBetter else if y < x then bBetter else rest) ↔
      x < y ∨ x = y ∧ 0 < rest := by
  unfold aBetter bBetter
  split
  · simp [*]
  · split <;> omega

section Ranks

variable (order : ByteOrder)

@[simp] theorem PortIdentity.length_octets (identity : PortIdentity) :
    (identity.octets order).length = 10 := by
  cases order <;> simp [PortIdentity.octets, halfword]

theorem halfword_inj {number other : UInt16} (same : halfword order number = halfword order other) :
    number = other := by
  have halves : number.toUInt8 = other.toUInt8 ∧
      (number >>> 8).toUInt8 = (other >>> 8).toUInt8 := by
    cases order <;> simp only [halfword, List.cons.injEq, and_true] at same <;> tauto
  obtain ⟨low, high⟩ := halves
  have lows := congrArg UInt8.toNat low
  have highs := congrArg UInt8.toNat high
  simp only [UInt16.toNat_toUInt8, UInt16.toNat_shiftRight] at lows highs
  have first : number.toNat < 2 ^ 16 := number.toNat_lt
  have second : other.toNat < 2 ^ 16 := other.toNat_lt
  apply UInt16.toNat_inj.mp
  simp [Nat.shiftRight_eq_div_pow] at highs
  omega

theorem PortIdentity.octets_inj {a b : PortIdentity} (same : a.octets order = b.octets order) :
    a = b := by
  obtain ⟨identity, number⟩ := a
  obtain ⟨other, differing⟩ := b
  obtain ⟨clock, port⟩ := List.append_inj same (by simp)
  simp only [PortIdentity.mk.injEq]
  exact ⟨Vector.toList_inj.mp clock, halfword_inj order port⟩

theorem PortIdentity.memcmp_eq_zero {a b : PortIdentity} :
    memcmp (a.octets order) (b.octets order) = 0 ↔ a = b := by
  rw [memcmp_eq (by simp)]
  constructor
  · exact octets_inj order
  · rintro rfl
    rfl

theorem identity_memcmp_eq_zero {a b : ClockIdentity} : memcmp a.toList b.toList = 0 ↔ a = b := by
  rw [memcmp_eq (by simp)]
  exact Vector.toList_inj

/-- What decides between data sets of one grandmaster. -/
def Dataset.route (a : Dataset) : List Nat :=
  a.stepsRemoved.toNat :: ((a.sender.octets order).map UInt8.toNat ++
    [a.receiver.portNumber.toNat])

/-- What `dscmp` orders by, the smallest being the best. -/
def Dataset.rank (a : Dataset) : List Nat :=
  a.priority1.toNat :: a.quality.clockClass.toNat :: a.quality.clockAccuracy.toNat ::
    a.quality.offsetScaledLogVariance.toNat :: a.priority2.toNat ::
    (a.identity.toList.map UInt8.toNat ++ a.route order)

/-- What `telecom_dscmp` orders by. Grandmasters of a class up to 127 are not told apart
by their identities. -/
def Dataset.telecomRank (a : Dataset) : List Nat :=
  a.quality.clockClass.toNat :: a.quality.clockAccuracy.toNat ::
    a.quality.offsetScaledLogVariance.toNat :: a.priority2.toNat :: a.localPriority.toNat ::
    if a.quality.clockClass ≤ 127 then a.route order
    else a.identity.toList.map UInt8.toNat ++ a.route order

/-- What describes a grandmaster goes with its identity. -/
def Dataset.Describes (a b : Dataset) : Prop :=
  a.identity = b.identity →
    a.priority1 = b.priority1 ∧ a.quality = b.quality ∧ a.priority2 = b.priority2

instance (a b : Dataset) : Decidable (a.Describes b) := inferInstanceAs (Decidable (_ → _))

variable {a b : Dataset}

theorem route_lt : a.route order < b.route order ↔
    a.stepsRemoved.toNat < b.stepsRemoved.toNat ∨ a.stepsRemoved.toNat = b.stepsRemoved.toNat ∧
      (memcmp (a.sender.octets order) (b.sender.octets order) < 0 ∨
        memcmp (a.sender.octets order) (b.sender.octets order) = 0 ∧
        a.receiver.portNumber.toNat < b.receiver.portNumber.toNat) := by
  unfold Dataset.route
  rw [List.cons_lt_cons_iff, block_lt (by simp), List.cons_lt_cons_iff]
  simp

/-- Between data sets of one grandmaster, fewer steps removed are better, then the sender
and then the receiving port decide. -/
theorem dscmp2_pos (first : a.receiver ≠ a.sender) (second : b.receiver ≠ b.sender) :
    0 < dscmp2 order a b ↔ a.route order < b.route order := by
  have nearer := mt (PortIdentity.memcmp_eq_zero order).mp first
  have farther := mt (PortIdentity.memcmp_eq_zero order).mp second
  rw [route_lt]
  simp only [dscmp2, aBetter, aBetterTopo, bBetter, bBetterTopo, gt_iff_lt,
    UInt16.lt_iff_toNat_lt]
  split_ifs <;> omega

/-- The better data set for `dscmp` is the one of the smaller rank. -/
theorem dscmpBoth_pos (first : a.receiver ≠ a.sender) (second : b.receiver ≠ b.sender)
    (describes : a.Describes b) : 0 < dscmpBoth order a b ↔ a.rank order < b.rank order := by
  unfold Dataset.rank
  simp only [List.cons_lt_cons_iff]
  rw [block_lt (by simp), ← dscmp2_pos order first second]
  by_cases same : a.identity = b.identity
  · obtain ⟨priority1, quality, priority2⟩ := describes same
    have equal := identity_memcmp_eq_zero.mpr same
    simp [dscmpBoth, equal, priority1, quality, priority2]
  · have differ := mt identity_memcmp_eq_zero.mp same
    have last : 0 < (if memcmp a.identity.toList b.identity.toList < 0 then aBetter else bBetter) ↔
        memcmp a.identity.toList b.identity.toList < 0 := by
      unfold aBetter bBetter
      split_ifs <;> simp [*]
    simp only [dscmpBoth, differ, if_false, gt_iff_lt, UInt8.lt_iff_toNat_lt,
      UInt16.lt_iff_toNat_lt, graded_pos, last, false_and, or_false]

/-- Where `telecom_dscmp` comes to the identities, it follows the ranks as well. -/
theorem telecom_last (first : a.receiver ≠ a.sender) (second : b.receiver ≠ b.sender)
    (same : a.quality.clockClass = b.quality.clockClass) :
    0 < (if a.quality.clockClass ≤ 127 then dscmp2 order a b
      else
        let diff := memcmp a.identity.toList b.identity.toList
        if diff = 0 then dscmp2 order a b else if diff < 0 then aBetter else bBetter) ↔
      (if a.quality.clockClass ≤ 127 then a.route order
        else a.identity.toList.map UInt8.toNat ++ a.route order) <
      if b.quality.clockClass ≤ 127 then b.route order
        else b.identity.toList.map UInt8.toNat ++ b.route order := by
  have nearest := dscmp2_pos order first second
  rw [← same]
  by_cases low : a.quality.clockClass ≤ 127
  · simpa only [low, if_true] using nearest
  · simp only [low, if_false]
    rw [block_lt (by simp), ← nearest]
    unfold aBetter bBetter
    split_ifs <;> omega

/-- The better data set for `telecom_dscmp` is the one of the smaller rank. -/
theorem telecomDscmpBoth_pos (first : a.receiver ≠ a.sender) (second : b.receiver ≠ b.sender) :
    0 < telecomDscmpBoth order a b ↔ a.telecomRank order < b.telecomRank order := by
  unfold Dataset.telecomRank
  simp only [List.cons_lt_cons_iff]
  simp only [telecomDscmpBoth, gt_iff_lt, UInt8.lt_iff_toNat_lt, UInt16.lt_iff_toNat_lt,
    graded_pos]
  by_cases classes : a.quality.clockClass = b.quality.clockClass
  · rw [← telecom_last order first second classes]
  · have apart := mt UInt8.toNat_inj.mp classes
    simp only [apart, false_and, or_false]

/-- Data sets with one rank have the same sender and the same receiving port. -/
theorem route_inj (same : a.route order = b.route order) :
    a.sender = b.sender ∧ a.receiver.portNumber = b.receiver.portNumber := by
  obtain ⟨_, rest⟩ := List.cons.inj same
  obtain ⟨senders, ports⟩ := List.append_inj rest (by simp)
  rw [List.map_inj_right fun _ _ => UInt8.toNat_inj.mp] at senders
  constructor
  · exact PortIdentity.octets_inj order senders
  · exact UInt16.toNat_inj.mp (List.cons.inj ports).1

theorem rank_inj (same : a.rank order = b.rank order) :
    a.sender = b.sender ∧ a.receiver.portNumber = b.receiver.portNumber := by
  simp only [Dataset.rank, List.cons.injEq] at same
  exact route_inj order (List.append_inj same.2.2.2.2.2 (by simp)).2

theorem telecomRank_inj (same : a.telecomRank order = b.telecomRank order) :
    a.sender = b.sender ∧ a.receiver.portNumber = b.receiver.portNumber := by
  simp only [Dataset.telecomRank, List.cons.injEq, UInt8.toNat_inj] at same
  obtain ⟨classes, -, -, -, -, rest⟩ := same
  rw [← classes] at rest
  split at rest
  · exact route_inj order rest
  · exact route_inj order (List.append_inj rest (by simp)).2

end Ranks

end LinuxPtp
