import LinuxPtp.RingBuffers
import LinuxPtp.ServoSteps
import Mathlib.Algebra.BigOperators.Ring.List
import Mathlib.Algebra.Order.BigOperators.Group.List
import Mathlib.Data.List.GetD
import Mathlib.Tactic.Linarith

/-!
# What the adaptive servo fits

The servo keeps its points in a ring, adds up those of each size to what it has of the smaller ones,
and keeps lines that it does not use yet. The line that it uses is that of a plain fit to the last
points since it was reset.

In exact arithmetic the sums are the weighted sums of a linear regression, and the line has the
least weighted squares of all lines. That the servo computes this line and no other does not
depend on exact arithmetic: it holds for any numbers, as the same operations are done in the same
order.
-/

namespace LinuxPtp.Servos

open FloatingPoint RingBuffers

universe u
variable {F : Type u} [Double F]

/-! ## A plain fit -/

/-- The line through points, the newest first, as seen from a reference. -/
def lineThrough (reference : Point F) (points : List (Point F)) : F × F :=
  let sums := points.foldl (Sums.add reference) Sums.none
  let slope := (sums.xy - sums.x * sums.y / sums.w) / (sums.x2 - sums.x * sums.x / sums.w)
  (slope, (sums.y - slope * sums.x) / sums.w)

section Exact

variable (reference : Point ℚ) (points : List (Point ℚ))

/-- How far a point is to the right of a reference, in exact arithmetic. -/
def across (point : Point ℚ) : ℚ := (point.x - reference.x).toInt64.toInt

/-- How far a point is above a reference. -/
def above (point : Point ℚ) : ℚ := (point.y - reference.y).toInt64.toInt

/-- A sum over points with their weights. -/
def weighted (f : Point ℚ → ℚ) : ℚ := (points.map fun point => point.w * f point).sum

/-- The five weighted sums of a linear regression. -/
def weightedSums : Sums ℚ where
  x := weighted points (across reference)
  y := weighted points (above reference)
  xy := weighted points fun point => across reference point * above reference point
  x2 := weighted points fun point => across reference point * across reference point
  w := weighted points fun _ => 1

/-- How far a line passes below a point. -/
def residual (slope intercept : ℚ) (point : Point ℚ) : ℚ :=
  above reference point - (intercept + slope * across reference point)

/-- The weighted squares of the residuals of a line. -/
def squares (slope intercept : ℚ) : ℚ :=
  weighted points fun point => residual reference slope intercept point ^ 2

section Weighted

variable {points}

/-- A weighted sum of a sum is the sum of both. -/
theorem weighted_add (f g : Point ℚ → ℚ) :
    weighted points (fun point => f point + g point) = weighted points f + weighted points g := by
  simp only [weighted, mul_add, List.sum_map_add]

theorem weighted_mul (factor : ℚ) (f : Point ℚ → ℚ) :
    weighted points (fun point => factor * f point) = factor * weighted points f := by
  simp only [weighted, mul_left_comm, List.sum_map_mul_left]

theorem weighted_nonneg {f : Point ℚ → ℚ} (weights : ∀ point ∈ points, 0 ≤ point.w)
    (values : ∀ point, 0 ≤ f point) : 0 ≤ weighted points f := by
  refine List.sum_nonneg fun term member => ?_
  obtain ⟨point, listed, rfl⟩ := List.mem_map.mp member
  exact mul_nonneg (weights point listed) (values point)

end Weighted

/-- The two conditions under which a line has least squares: the residuals have no weighted sum, and
none with where the points are. -/
theorem squares_least {slope intercept : ℚ} (weights : ∀ point ∈ points, 0 ≤ point.w)
    (centred : weighted points (residual reference slope intercept) = 0)
    (level : weighted points
      (fun point => residual reference slope intercept point * across reference point) = 0)
    (otherSlope otherIntercept : ℚ) :
    squares reference points slope intercept ≤
      squares reference points otherSlope otherIntercept := by
  have split (point : Point ℚ) : residual reference otherSlope otherIntercept point ^ 2 =
      residual reference slope intercept point ^ 2 +
        (2 * (intercept - otherIntercept) * residual reference slope intercept point +
          (2 * (slope - otherSlope) *
              (residual reference slope intercept point * across reference point) +
            (intercept - otherIntercept + (slope - otherSlope) * across reference point) ^ 2)) := by
    unfold residual
    ring
  have apart : 0 ≤ weighted points fun point =>
      (intercept - otherIntercept + (slope - otherSlope) * across reference point) ^ 2 :=
    weighted_nonneg weights fun _ => sq_nonneg _
  unfold squares
  simp only [split]
  rw [weighted_add, weighted_add, weighted_add, weighted_mul, weighted_mul, centred, level]
  linarith

variable [Power]

/-- One more point adds its term to each sum. -/
theorem add_eq (sums : Sums ℚ) (point : Point ℚ) : Sums.add reference sums point =
    { x := sums.x + point.w * across reference point
      y := sums.y + point.w * above reference point
      xy := sums.xy + point.w * (across reference point * above reference point)
      x2 := sums.x2 + point.w * (across reference point * across reference point)
      w := sums.w + point.w * 1 } := by
  rw [Sums.mk.injEq]
  refine ⟨?_, ?_, ?_, ?_, congrArg (sums.w + ·) (mul_one _).symm⟩
  · exact congrArg (sums.x + ·) (mul_comm (across reference point) _)
  · exact congrArg (sums.y + ·) (mul_comm (above reference point) _)
  · exact congrArg (sums.xy + ·) (mul_comm (across reference point * above reference point) _)
  · exact congrArg (sums.x2 + ·) (mul_comm (across reference point * across reference point) _)

/-- In exact arithmetic the sums that the code carries are these, by induction on the points. -/
theorem sums_eq :
    points.foldl (Sums.add reference) Sums.none = weightedSums reference points := by
  have walk (start : Sums ℚ) : points.foldl (Sums.add reference) start =
      { x := start.x + (weightedSums reference points).x
        y := start.y + (weightedSums reference points).y
        xy := start.xy + (weightedSums reference points).xy
        x2 := start.x2 + (weightedSums reference points).x2
        w := start.w + (weightedSums reference points).w } := by
    induction points generalizing start with
    | nil => simp [weightedSums, weighted]
    | cons point rest inductionHypothesis =>
      rw [List.foldl_cons, inductionHypothesis, add_eq]
      simp only [weightedSums, weighted, List.map_cons, List.sum_cons, add_assoc]
  have zero : (0.0 : ℚ) = 0 := by norm_num
  rw [walk]
  simp [Sums.none, zero]

/-- The line of the code from the five sums. -/
theorem lineThrough_eq : lineThrough reference points =
    let sums := weightedSums reference points
    let slope := (sums.xy - sums.x * sums.y / sums.w) / (sums.x2 - sums.x * sums.x / sums.w)
    (slope, (sums.y - slope * sums.x) / sums.w) := by
  unfold lineThrough
  rw [sums_eq]

/-- The line of the code is a least squares fit: as long as the sums that it divides by are not zero
and no weight is negative, no other line has smaller weighted squares.

Proof: the residuals of the line have no weighted mean and no weighted correlation with where the
points are. So the squares of another line are those of the line, and those of the difference of the
two lines on top. -/
theorem lineThrough_least (weights : ∀ point ∈ points, 0 ≤ point.w)
    (filled : (weightedSums reference points).w ≠ 0)
    (spread : (weightedSums reference points).x2 - (weightedSums reference points).x *
      (weightedSums reference points).x / (weightedSums reference points).w ≠ 0)
    (slope intercept : ℚ) :
    squares reference points (lineThrough reference points).1 (lineThrough reference points).2 ≤
      squares reference points slope intercept := by
  have terms (slope intercept : ℚ) : weighted points (residual reference slope intercept) =
        (weightedSums reference points).y - (intercept * (weightedSums reference points).w +
          slope * (weightedSums reference points).x) ∧
      weighted points (fun point => residual reference slope intercept point *
          across reference point) =
        (weightedSums reference points).xy - (intercept * (weightedSums reference points).x +
          slope * (weightedSums reference points).x2) := by
    constructor
    · have parts (point : Point ℚ) : residual reference slope intercept point =
          above reference point + (-intercept * 1 + -slope * across reference point) := by
        unfold residual
        ring
      rw [funext parts, weighted_add, weighted_add, weighted_mul, weighted_mul]
      simp only [weightedSums]
      ring
    · have parts (point : Point ℚ) :
          residual reference slope intercept point * across reference point =
            across reference point * above reference point +
              (-intercept * across reference point +
                -slope * (across reference point * across reference point)) := by
        unfold residual
        ring
      simp only [parts]
      rw [weighted_add, weighted_add, weighted_mul, weighted_mul]
      simp only [weightedSums]
      ring
  rw [lineThrough_eq]
  generalize weightedSums reference points = sums at filled spread terms
  dsimp only
  apply squares_least reference points weights
  · rw [(terms _ _).1, div_mul_cancel₀ _ filled]
    ring
  · rw [(terms _ _).2]
    generalize slopes : (sums.xy - sums.x * sums.y / sums.w) /
      (sums.x2 - sums.x * sums.x / sums.w) = steep
    rw [div_eq_iff spread] at slopes
    have whole : (sums.y - steep * sums.x) / sums.w * sums.x + steep * sums.x2 =
        sums.x * sums.y / sums.w + steep * (sums.x2 - sums.x * sums.x / sums.w) := by ring
    rw [whole, ← slopes]
    ring

end Exact

/-- What a sample returns with a plain fit to the last points. -/
def plainSample (servo : Servo F) (updateInterval : F) (size : Nat) (offset : Int64)
    (reference : Point F) (points : List (Point F)) : F × ServoState :=
  let (slope, intercept) := lineThrough reference (points.reverse.take (2 ^ size))
  if jumps servo intercept then
    let intercept := intercept + (ofInt64 0 * slope - ofInt64 (-offset))
    (-clockFrequency servo updateInterval size slope intercept, .jump)
  else (-clockFrequency servo updateInterval size slope intercept, .locked)

/-- The point of a sample. -/
def pointOf (offset : Int64) (localTs : UInt64) (weight : F) (s : LinregServo F) : Point F :=
  let reference := (updateReference localTs s).reference
  { x := reference.x, y := reference.y - offset.toUInt64, w := weight }

/-- The points since the last reset, after an event. -/
def pointsAfter (servo : Servo F) (points : List (Point F)) : ServoEvent F → List (Point F)
  | .sample offset localTs weight =>
    match servo.core with
    | .linreg s => points ++ [pointOf offset localTs weight s]
    | _ => points
  | .reset => []
  | _ => points

/-- A servo after events, and the points of its samples since the last reset. -/
def recorded (servo : Servo F) (events : List (ServoEvent F)) : Servo F × List (Point F) :=
  events.foldl (fun now event => (servoStep now.1 event, pointsAfter now.1 now.2 event)) (servo, [])

/-! ## The ring -/

variable {s : LinregServo F} {history : List (Point F)}

/-- The ring of the points. -/
def LinregServo.trail (s : LinregServo F) : Trail (Point F) := ⟨s.points, s.lastPoint, s.numPoints⟩

/-- The points are the last ones, and there is nothing of a size that there are too few for. -/
structure Fitting (s : LinregServo F) (history : List (Point F)) : Prop where
  size : s.points.length = maxPoints
  points : s.trail.Holds history
  results : s.results.length = maxSize - minSize + 1
  fresh : ∀ (place : Nat) (res : Result F), s.results[place]? = some res →
    s.numPoints < 2 ^ (minSize + place) → (res.slope != 0.0) = false ∧ res.errUpdates = 0

theorem Fitting.count (fitting : Fitting s history) : s.numPoints = min history.length maxPoints :=
  fitting.points.count.trans (congrArg _ fitting.size)

/-- A point is read where it is. -/
theorem Fitting.recent (fitting : Fitting s history) {newer : Nat} (less : newer < s.numPoints) :
    history.reverse[newer]? = some (s.recent newer) := by
  have size : s.trail.cells.length = maxPoints := fitting.size
  have inside : s.trail.place newer < s.trail.cells.length :=
    Nat.mod_lt _ (Nat.zero_lt_of_lt fitting.points.inside)
  rw [← fitting.points.back newer less, LinregServo.recent, List.getD_eq_getElem?_getD]
  have place : (maxPoints + s.lastPoint - newer) % maxPoints = s.trail.place newer := by
    rw [Trail.place, size]
    rfl
  have cells : s.points = s.trail.cells := rfl
  rw [place, cells, List.getElem?_eq_getElem inside]
  rfl

/-- The points of a size are those of a smaller one and the next ones of the ring. -/
theorem Fitting.recents (fitting : Fitting s history) {i n : Nat} (smaller : i ≤ n)
    (enough : n ≤ s.numPoints) :
    history.reverse.take i ++ (List.range' i (n - i)).map s.recent = history.reverse.take n := by
  have parts : history.reverse.take n =
      history.reverse.take i ++ (history.reverse.drop i).take (n - i) := by
    rw [← List.take_add, Nat.add_sub_cancel' smaller]
  rw [parts]
  congr 1
  refine List.ext_getElem? fun place => ?_
  by_cases inside : place < n - i
  · rw [List.getElem?_take_of_lt inside, List.getElem?_drop,
      fitting.recent (Nat.lt_of_lt_of_le (by omega) enough), List.getElem?_map,
      List.getElem?_range' inside, Nat.one_mul]
    rfl
  · have count := fitting.count
    rw [List.getElem?_eq_none (by rw [List.length_map, List.length_range']; omega),
      List.getElem?_eq_none (by rw [List.length_take]; omega)]

/-! ## The regression -/

/-- A result has the line of the last points. -/
def Fits (reference : Point F) (history : List (Point F)) (size : Nat) (res : Result F) : Prop :=
  (res.slope, res.intercept) = lineThrough reference (history.reverse.take (2 ^ size))

/-- Every size that there are points for has their line, and the others stay as they are. -/
theorem Fitting.regressFrom (fitting : Fitting s history) (y0 : F) {results : List (Result F)}
    {size i : Nat} (smaller : i ≤ 2 ^ size) {place : Nat} {res : Result F}
    (present : (regressFrom s y0 size i
      ((history.reverse.take i).foldl (Sums.add s.reference) Sums.none) results)[place]? =
        some res) :
    (2 ^ (size + place) ≤ s.numPoints ∧ Fits s.reference history (size + place) res) ∨
    (s.numPoints < 2 ^ (size + place) ∧ results[place]? = some res) := by
  induction results generalizing size i place with
  | nil => cases present
  | cons first rest inductionHypothesis =>
    rw [Servos.regressFrom] at present
    dsimp only at present
    split at present
    next few =>
      refine .inr ⟨Nat.lt_of_lt_of_le few ?_, present⟩
      exact Nat.pow_le_pow_right (by decide) (Nat.le_add_right ..)
    next enough =>
      rw [← List.foldl_append, fitting.recents smaller (Nat.not_lt.mp enough)] at present
      cases place with
      | zero =>
        obtain rfl := Option.some.inj present
        exact .inl ⟨Nat.not_lt.mp enough, rfl⟩
      | succ place =>
        have larger : 2 ^ size ≤ 2 ^ (size + 1) :=
          Nat.pow_le_pow_right (by decide) (Nat.le_succ _)
        rw [List.getElem?_cons_succ] at present ⊢
        rw [Nat.add_comm place 1, ← Nat.add_assoc]
        exact inductionHypothesis larger present

theorem length_regressFrom (y0 : F) {size i : Nat} {sums : Sums F} {results : List (Result F)} :
    (regressFrom s y0 size i sums results).length = results.length := by
  induction results generalizing size i sums with
  | nil => rfl
  | cons first rest inductionHypothesis =>
    rw [regressFrom]
    dsimp only
    split
    · rfl
    · exact congrArg Nat.succ inductionHypothesis

/-- The size that is chosen is none, or it has a slope or enough errors. -/
theorem bestSize_cases (size : Nat) (best : Nat × F) (results : List (Result F)) :
    bestSize size best results = best.1 ∨ ∃ place res, results[place]? = some res ∧
      bestSize size best results = size + place ∧
      ((res.slope != 0.0) = true ∨ res.errUpdates ≠ 0) := by
  induction results generalizing size best with
  | nil => exact .inl rfl
  | cons first rest inductionHypothesis =>
    rw [bestSize]
    rcases inductionHypothesis (size + 1) (if (best.1 = 0 && first.slope != 0.0 ||
      (first.err < best.2 * 1.05 && 10 ≤ first.errUpdates)) = true then (size, first.err) else best)
      with same | ⟨place, res, present, chosen, used⟩
    · rw [same]
      split
      next better =>
        refine .inr ⟨0, first, rfl, rfl, ?_⟩
        simp only [Bool.or_eq_true, Bool.and_eq_true, decide_eq_true_eq] at better
        rcases better with ⟨-, slope⟩ | ⟨-, updates⟩
        · exact .inl slope
        · exact .inr (by omega)
      · exact .inl rfl
    · exact .inr ⟨place + 1, res, present, by rw [chosen]; omega, used⟩

/-! ## Events -/

/-- What is known of the points depends on the four fields that the regression reads. -/
theorem Fitting.congr (fitting : Fitting s history) {t : LinregServo F}
    (points : t.points = s.points) (lastPoint : t.lastPoint = s.lastPoint)
    (numPoints : t.numPoints = s.numPoints) (results : t.results = s.results) :
    Fitting t history := by
  have trail : t.trail = s.trail := by
    rw [LinregServo.trail, points, lastPoint, numPoints]
    rfl
  refine ⟨points ▸ fitting.size, trail ▸ fitting.points, results ▸ fitting.results, ?_⟩
  rw [results, numPoints]
  exact fitting.fresh

/-- A change to the lines that leaves what is fresh so. -/
theorem Fitting.map (fitting : Fitting s history) (change : Result F → Result F)
    (kept : ∀ res, (change res).slope = res.slope ∧ (change res).errUpdates = res.errUpdates)
    {t : LinregServo F} (points : t.points = s.points) (lastPoint : t.lastPoint = s.lastPoint)
    (numPoints : t.numPoints = s.numPoints) (results : t.results = s.results.map change) :
    Fitting t history := by
  have trail : t.trail = s.trail := by
    rw [LinregServo.trail, points, lastPoint, numPoints]
    rfl
  refine ⟨points ▸ fitting.size, trail ▸ fitting.points, ?_, fun place res present few => ?_⟩
  · rw [results, List.length_map]
    exact fitting.results
  · rw [results, List.getElem?_map] at present
    obtain ⟨before, there, rfl⟩ := Option.map_eq_some_iff.mp present
    rw [(kept before).1, (kept before).2]
    exact fitting.fresh place before there (numPoints ▸ few)

/-- The points are kept as differences, so that another reference is no change to them. -/
theorem Fitting.moveReference (fitting : Fitting s history) (x y : Int64) :
    Fitting (moveReference x y s) history :=
  fitting.map (Result.moved _ _) (fun _ => ⟨rfl, rfl⟩) rfl rfl rfl rfl

/-- The reference goes on to the local time of the sample; the points stay. -/
theorem Fitting.updateReference (fitting : Fitting s history) (localTs : UInt64) :
    Fitting (updateReference localTs s) history := by
  rw [Servos.updateReference]
  split
  · exact fitting.congr rfl rfl rfl rfl
  · exact fitting.map (Result.moved _ _) (fun _ => ⟨rfl, rfl⟩) rfl rfl rfl rfl

/-- A sample is the last point of the ring and of the history. -/
theorem Fitting.addSample (fitting : Fitting s history) (offset : Int64) (weight : F) :
    Fitting (addSample offset weight s)
      (history ++ [⟨s.reference.x, s.reference.y - offset.toUInt64, weight⟩]) := by
  have size : s.trail.cells.length = maxPoints := fitting.size
  have trail : (Servos.addSample offset weight s).trail =
      s.trail.push ⟨s.reference.x, s.reference.y - offset.toUInt64, weight⟩ := by
    rw [Trail.push, size]
    rfl
  refine ⟨List.length_set.trans fitting.size, trail ▸ fitting.points.push _, fitting.results, ?_⟩
  intro place res present few
  refine fitting.fresh place res present (Nat.lt_of_le_of_lt ?_ few)
  have more : (Servos.addSample offset weight s).numPoints =
      if s.numPoints < maxPoints then s.numPoints + 1 else s.numPoints := rfl
  rw [more]
  split <;> omega

/-- The regression writes results and no points. -/
theorem Fitting.regress (fitting : Fitting s history) : Fitting (regress s) history := by
  refine ⟨fitting.size, fitting.points, (length_regressFrom _).trans fitting.results, ?_⟩
  intro place res present (few : s.numPoints < _)
  rcases fitting.regressFrom _ (Nat.zero_le _) present with ⟨enough, -⟩ | ⟨-, same⟩
  · omega
  · exact fitting.fresh place res same few

/-- After a reset there are no points. -/
theorem Fitting.reset (fitting : Fitting s history) : Fitting (linregReset s) [] := by
  refine ⟨fitting.size, Trail.holds_none fitting.points.inside rfl, ?_, ?_⟩
  · exact (List.length_map _).trans fitting.results
  · intro place res present _
    obtain ⟨before, -, rfl⟩ := Option.map_eq_some_iff.mp (List.getElem?_map ▸ present)
    refine ⟨?_, rfl⟩
    rw [bne, Double.zero_beq]
    rfl

/-- Only the reference is moved, at the end of a leap second. -/
theorem Fitting.leap (fitting : Fitting s history) (leap : Int) :
    Fitting (linregLeap leap s) history := by
  rw [linregLeap]
  split
  · exact fitting.map (Result.moved _ _) (fun _ => ⟨rfl, rfl⟩) rfl rfl rfl rfl
  · exact fitting.congr rfl rfl rfl rfl

/-- The line of the size that is chosen is that of the last points. -/
theorem Fitting.chosen (fitting : Fitting s history)
    (enough : ¬ (updateSize (Servos.regress s)).size < minSize) :
    let now := updateSize (Servos.regress s)
    now.size ≤ maxSize ∧ 2 ^ now.size ≤ history.length ∧
      Fits s.reference history now.size now.line := by
  intro now
  have size : now.size = bestSize minSize (0, 0.0) (Servos.regress s).results := rfl
  rcases bestSize_cases minSize (0, (0.0 : F)) (Servos.regress s).results with
    none | ⟨place, res, present, chosen, used⟩
  · rw [← size] at none
    have few : now.size < minSize := none ▸ Nat.zero_lt_of_lt (by decide : 0 < minSize)
    exact absurd few enough
  · rw [← size] at chosen
    have line : now.line = res := by
      rw [LinregServo.line, List.getD_eq_getElem?_getD, chosen, Nat.add_sub_cancel_left]
      exact congrArg (Option.getD · _) present
    have inside : place < maxSize - minSize + 1 := by
      rw [← fitting.regress.results]
      exact (List.getElem?_eq_some_iff.mp present).1
    have large : now.size ≤ maxSize := by
      rw [chosen]
      have sizes : minSize ≤ maxSize := by decide
      omega
    rcases fitting.regressFrom _ (Nat.zero_le _) present with ⟨enough, fits⟩ | ⟨few, same⟩
    · rw [← chosen] at enough fits
      have count := fitting.count
      exact ⟨large, by omega, line ▸ fits⟩
    · obtain ⟨noSlope, noErrors⟩ := fitting.fresh place res same few
      rw [noSlope, noErrors] at used
      simp at used

/-- A line moves with the clock when it is stepped: each value is less by the offset. -/
theorem stepped_line {offset : Int64} (there : s.size - minSize < s.results.length) :
    (stepped offset s).line = s.line.moved 0 (-offset) := by
  have line : (stepped offset s).line = (s.results.map (Result.moved 0 (-offset))).getD
      (s.size - minSize) ⟨0.0, 0.0, 0.0, 0⟩ := rfl
  rw [line, LinregServo.line, List.getD_eq_getElem _ _ (by rwa [List.length_map]),
    List.getD_eq_getElem _ _ there, List.getElem_map]

/-- A sample adds its point, and what it returns is what a plain fit to the last ones does. -/
theorem Fitting.sample (fitting : Fitting s history) (servo : Servo F) (offset : Int64)
    (localTs : UInt64) (weight : F) :
    let points := history ++ [pointOf offset localTs weight s]
    let result := linregSample servo offset localTs weight s
    Fitting result.2.2 points ∧ (result.2.1 = .unlocked ∨ ∃ size, minSize ≤ size ∧
      size ≤ maxSize ∧ 2 ^ size ≤ points.length ∧ (result.1, result.2.1) =
        plainSample servo s.updateInterval size offset
          (Servos.updateReference localTs s).reference points) := by
  intro points result
  have added : Fitting (Servos.addSample offset weight (Servos.updateReference localTs s)) points :=
    (fitting.updateReference localTs).addSample offset weight
  have reference : (Servos.addSample offset weight (Servos.updateReference localTs s)).reference =
      (Servos.updateReference localTs s).reference := rfl
  have interval : (Servos.addSample offset weight
      (Servos.updateReference localTs s)).updateInterval = s.updateInterval := by
    rw [Servos.addSample, Servos.updateReference]
    split <;> rfl
  have regressed := added.regress
  have chosen := added.chosen
  rw [← reference, ← interval]
  unfold result linregSample
  generalize Servos.addSample offset weight (Servos.updateReference localTs s) = before at *
  dsimp only
  split
  next few => exact ⟨regressed.congr rfl rfl rfl rfl, .inl rfl⟩
  next enough =>
    obtain ⟨large, many, fits⟩ := chosen enough
    rw [Fits] at fits
    split
    next jump =>
      refine ⟨?_, .inr ⟨_, Nat.not_lt.mp enough, large, many, ?_⟩⟩
      · exact regressed.map (Result.moved _ _) (fun _ => ⟨rfl, rfl⟩) rfl rfl rfl rfl
      · rw [plainSample, ← fits]
        dsimp only
        have there : (updateSize (Servos.regress before)).size - minSize <
            (updateSize (Servos.regress before)).results.length := by
          have sizes : maxSize - minSize < (updateSize (Servos.regress before)).results.length :=
            regressed.results ▸ Nat.lt_succ_self _
          omega
        rw [if_pos jump, stepped_line there]
        rfl
    next still =>
      refine ⟨regressed.congr rfl rfl rfl rfl, .inr ⟨_, Nat.not_lt.mp enough, large, many, ?_⟩⟩
      rw [plainSample, ← fits]
      dsimp only
      rw [if_neg still]
      rfl

/-! ## Runs -/

/-- A servo that fits lines to the points since its last reset. -/
def FitsPoints (servo : Servo F) (points : List (Point F)) : Prop :=
  ∃ s, servo.core = .linreg s ∧ Fitting s points

/-- One event of any kind keeps the servo in step with the points that count. -/
theorem FitsPoints.step {servo : Servo F} {points : List (Point F)}
    (fits : FitsPoints servo points) (event : ServoEvent F) :
    FitsPoints (servoStep servo event) (pointsAfter servo points event) := by
  obtain ⟨s, core, fitting⟩ := fits
  cases event with
  | sample offset localTs weight =>
    refine ⟨(linregSample servo offset localTs weight s).2.2, ?_, ?_⟩
    · rw [servoStep, servoSample, coreSample, core]
    · rw [pointsAfter, core]
      exact (fitting.sample servo offset localTs weight).1
  | syncInterval interval =>
    refine ⟨linregSyncInterval interval s, ?_, fitting.congr rfl rfl rfl rfl⟩
    rw [servoStep, servoSyncInterval, core]
  | reset =>
    refine ⟨linregReset s, ?_, fitting.reset⟩
    rw [servoStep, servoReset, core]
  | leap leap =>
    refine ⟨linregLeap leap s, ?_, fitting.leap leap⟩
    rw [servoStep, servoLeap, core]

/-- So does every run, by induction on the events. -/
theorem recorded_fits {servo : Servo F} (initially : FitsPoints servo [])
    (events : List (ServoEvent F)) :
    FitsPoints (recorded servo events).1 (recorded servo events).2 := by
  rw [recorded]
  induction events using List.reverseRecOn with
  | nil => exact initially
  | append_singleton events event inductionHypothesis =>
    rw [List.foldl_append]
    exact inductionHypothesis.step event

theorem fitting_create (fadj : Int) : Fitting (linregServoCreate fadj : LinregServo F) [] := by
  refine ⟨List.length_replicate, Trail.holds_none ?_ rfl, List.length_replicate, ?_⟩
  · exact Nat.lt_of_lt_of_eq (by decide : 0 < maxPoints) List.length_replicate.symm
  · intro place res present _
    obtain rfl := List.eq_of_mem_replicate (List.mem_of_getElem? present)
    refine ⟨?_, rfl⟩
    rw [bne, Double.zero_beq]
    rfl

/-- Whatever the servo went through, a sample that it uses returns what a plain fit returns to the
last points of a size since the last reset, of which there are enough.

Proof: the ring holds the last points that were put in, so that counting back from the newest one
gives them in order. The sums for a size are those for the one before with the points in between,
which is the sum of all of them. -/
theorem last_points_fitted {segment : Int → Option ShmTime} {cfg : ServoConfig F}
    {fadj maxPpb : Int} {swTs : Bool} {servo : Servo F}
    (created : servoCreate segment cfg .linreg fadj maxPpb swTs = some servo)
    (events : List (ServoEvent F)) (offset : Int64) (localTs : UInt64) (weight : F) :
    let now := (recorded servo events).1
    let result := servoSample now offset localTs weight
    let points := pointsAfter now (recorded servo events).2 (.sample offset localTs weight)
    ∃ s, now.core = .linreg s ∧ (result.2.1 = .unlocked ∨ ∃ size, minSize ≤ size ∧
      size ≤ maxSize ∧ 2 ^ size ≤ points.length ∧ (result.1, result.2.1) =
        plainSample now s.updateInterval size offset (updateReference localTs s).reference
          points) := by
  intro now result points
  have initially : FitsPoints servo [] := by
    obtain ⟨core, made, rfl⟩ := Option.map_eq_some_iff.mp created
    exact ⟨_, (Option.some.inj made).symm, fitting_create fadj⟩
  obtain ⟨s, core, fitting⟩ := recorded_fits initially events
  refine ⟨s, core, ?_⟩
  have sampled := (fitting.sample now offset localTs weight).2
  have same : (result.1, result.2.1) = ((linregSample now offset localTs weight s).1,
      (linregSample now offset localTs weight s).2.1) := by
    unfold result servoSample coreSample
    rw [core]
  have taken : points = (recorded servo events).2 ++ [pointOf offset localTs weight s] := by
    unfold points pointsAfter
    rw [core]
  obtain ⟨-, state⟩ := Prod.mk.inj same
  rw [taken, same, state]
  exact sampled

theorem last_points_fitted_late : ∃ servo,
    servoCreate (fun _ => none) plainConfig .linreg 0 500000 false = some servo ∧
    let now := (recorded servo (lateSamples 4)).1
    let result := servoSample now (-39996) 5000000000 1.0
    let points := pointsAfter now (recorded servo (lateSamples 4)).2
      (.sample (-39996) 5000000000 1.0)
    result.2.1 = .locked ∧ points.length = 5 ∧
    ∃ s, now.core = .linreg s ∧ (result.2.1 = .unlocked ∨ ∃ size, minSize ≤ size ∧
      size ≤ maxSize ∧ 2 ^ size ≤ points.length ∧ (result.1, result.2.1) =
        plainSample now s.updateInterval size (-39996) (updateReference 5000000000 s).reference
          points) := by
  have created : servoCreate (fun _ => none) plainConfig .linreg 0 500000 false = some _ := rfl
  refine ⟨_, created, by decide +kernel, by decide +kernel, ?_⟩
  exact last_points_fitted created (lateSamples 4) (-39996) 5000000000 1.0

end LinuxPtp.Servos
