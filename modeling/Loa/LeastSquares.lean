import Mathlib.Algebra.BigOperators.Group.List.Basic
import Mathlib.Algebra.Order.Field.Basic
import Mathlib.Tactic

/-!
# The least-squares slope of points

A line is best for points in the plane if no other line has a smaller sum of
squared residuals.  Points that do not all lie above one another have one best
slope; where they do, every slope is best, and the flattest of them is level.
The sums of the coordinates and of their products determine it.
-/

namespace LeastSquares

variable {K : Type*} [Field K] [LinearOrder K] [IsStrictOrderedRing K]

/-- The sum of the squared residuals of a line. -/
def residual (points : List (K × K)) (intercept slope : K) : K :=
  (points.map fun point =>
    (point.2 - intercept - slope * point.1) ^ 2).sum

/-- No line does better. -/
def Best (points : List (K × K)) (intercept slope : K) : Prop :=
  ∀ otherIntercept otherSlope,
    residual points intercept slope ≤ residual points otherIntercept otherSlope

/-- The slope of a best line, the flattest if there are several. -/
structure IsSlope (points : List (K × K)) (slope : K) : Prop where
  best : ∃ intercept, Best points intercept slope
  flattest : ∀ otherIntercept otherSlope,
    Best points otherIntercept otherSlope → |slope| ≤ |otherSlope|

section Sums

variable (points : List (K × K))

def sumX : K :=
  (points.map fun point => point.1).sum

def sumY : K :=
  (points.map fun point => point.2).sum

def sumXX : K :=
  (points.map fun point => point.1 * point.1).sum

def sumXY : K :=
  (points.map fun point => point.1 * point.2).sum

/-- How far the abscissas are apart, scaled. -/
def spread : K :=
  points.length * sumXX points - sumX points * sumX points

/-- The slope from the sums. -/
def slope : K :=
  if spread points ≠ 0 then
    (points.length * sumXY points - sumX points * sumY points) / spread points
  else 0

end Sums

/-- The sum of the squared heights of a line above the abscissas. -/
def form (points : List (K × K)) (u v : K) : K :=
  (points.map fun point => (u + v * point.1) ^ 2).sum

theorem form_eq (points : List (K × K)) (u v : K) :
    form points u v =
      points.length * u ^ 2 + 2 * u * v * sumX points +
        v ^ 2 * sumXX points := by
  induction points with
  | nil => simp [form, sumX, sumXX]
  | cons point rest induction =>
      simp only [form, sumX, sumXX, List.map_cons, List.sum_cons,
        List.length_cons] at induction ⊢
      rw [induction]
      push_cast
      ring

theorem form_nonneg (points : List (K × K)) (u v : K) : 0 ≤ form points u v := by
  apply List.sum_nonneg
  intro square member
  obtain ⟨point, -, rfl⟩ := List.mem_map.mp member
  exact sq_nonneg _

theorem heights_of_form_eq_zero {points : List (K × K)} {u v : K}
    (flat : form points u v = 0) : ∀ point ∈ points, u + v * point.1 = 0 := by
  induction points with
  | nil => simp
  | cons first rest induction =>
      have split : (u + v * first.1) ^ 2 + form rest u v = 0 := flat
      have head := sq_nonneg (u + v * first.1)
      have tail := form_nonneg rest u v
      intro point member
      rcases List.mem_cons.mp member with rfl | later
      · exact pow_eq_zero_iff two_ne_zero |>.mp (by linarith)
      · exact induction (by linarith) point later

/-- The normal equations. -/
def Normal (points : List (K × K)) (a b : K) : Prop :=
  points.length * a + b * sumX points = sumY points ∧
    a * sumX points + b * sumXX points = sumXY points

/-- At a solution of the normal equations, moving the line costs what the moved
line is high. -/
theorem residual_of_normal {points : List (K × K)} {a b : K}
    (normal : Normal points a b) (c d : K) :
    residual points c d = residual points a b + form points (c - a) (d - b) := by
  have expand (e f : K) : residual points e f =
      (points.map fun point => point.2 * point.2).sum + points.length * e ^ 2 +
        f ^ 2 * sumXX points - 2 * e * sumY points - 2 * f * sumXY points +
        2 * e * f * sumX points := by
    clear normal
    induction points with
    | nil => simp [residual, sumX, sumY, sumXX, sumXY]
    | cons point rest induction =>
        simp only [residual, sumX, sumY, sumXX, sumXY, List.map_cons,
          List.sum_cons, List.length_cons] at induction ⊢
        rw [induction]
        push_cast
        ring
  obtain ⟨first, second⟩ := normal
  rw [expand, expand, form_eq, ← first, ← second]
  ring

theorem best_of_normal {points : List (K × K)} {a b : K}
    (normal : Normal points a b) : Best points a b := by
  intro c d
  rw [residual_of_normal normal c d]
  have cost := form_nonneg points (c - a) (d - b)
  linarith

theorem form_center (points : List (K × K)) :
    form points (-sumX points) points.length =
      points.length * spread points := by
  rw [form_eq, spread]
  ring

theorem spread_nonneg (points : List (K × K)) : 0 ≤ spread points := by
  cases points with
  | nil => simp [spread, sumX]
  | cons point rest =>
      have count : (0 : K) < (point :: rest).length := by
        rw [List.length_cons]
        positivity
      have scaled := form_nonneg (point :: rest) (-sumX (point :: rest))
        (point :: rest).length
      rw [form_center] at scaled
      exact nonneg_of_mul_nonneg_right scaled count

/-- Points with their abscissas apart have one best slope. -/
theorem best_slope_unique {points : List (K × K)} {a b c d : K}
    (apart : spread points ≠ 0) (normal : Normal points a b)
    (best : Best points c d) : d = b := by
  have flat : form points (c - a) (d - b) = 0 := by
    have cost := form_nonneg points (c - a) (d - b)
    have least := best a b
    rw [residual_of_normal normal c d] at least
    linarith
  have squares : (points.length * (c - a) + (d - b) * sumX points) ^ 2 +
      spread points * (d - b) ^ 2 = 0 := by
    have scaled : (points.length : K) * form points (c - a) (d - b) = 0 := by
      rw [flat, mul_zero]
    rw [form_eq] at scaled
    unfold spread
    linear_combination scaled
  have first := sq_nonneg (points.length * (c - a) + (d - b) * sumX points)
  have second := mul_nonneg (spread_nonneg points) (sq_nonneg (d - b))
  have turned : spread points * (d - b) ^ 2 = 0 := by linarith
  rcases mul_eq_zero.mp turned with none | same
  · exact absurd none apart
  · exact sub_eq_zero.mp (pow_eq_zero_iff two_ne_zero |>.mp same)

theorem length_ne_zero {points : List (K × K)} (some : points ≠ []) :
    (points.length : K) ≠ 0 :=
  Nat.cast_ne_zero.mpr (List.length_pos_iff.mpr some).ne'

theorem normal_slope {points : List (K × K)} (apart : spread points ≠ 0) :
    Normal points
      ((sumY points - slope points * sumX points) / points.length)
      (slope points) := by
  have some : points ≠ [] := by
    rintro rfl
    exact apart (by simp [spread, sumX])
  have count := length_ne_zero some
  have solved : slope points * spread points =
      points.length * sumXY points - sumX points * sumY points := by
    rw [slope, if_pos apart, div_mul_cancel₀ _ apart]
  constructor
  · rw [mul_div_cancel₀ _ count]
    ring
  · unfold spread at solved
    field_simp
    linear_combination solved

/-- Points above one another are best met by a level line. -/
theorem normal_level {points : List (K × K)} (some : points ≠ [])
    (stacked : spread points = 0) :
    Normal points (sumY points / points.length) 0 := by
  have count := length_ne_zero some
  have flat : form points (-sumX points) points.length = 0 := by
    rw [form_center, stacked, mul_zero]
  have above := heights_of_form_eq_zero flat
  have product : sumXY points =
      sumX points / points.length * sumY points := by
    unfold sumXY sumY
    rw [← List.sum_map_mul_left]
    congr 1
    apply List.map_congr_left
    intro point member
    have here : point.1 = sumX points / points.length := by
      rw [eq_div_iff count]
      linarith [above point member]
    rw [here]
  constructor
  · rw [mul_div_cancel₀ _ count]
    ring
  · rw [product]
    ring

/-- The sums give the slope of the best line, the level one if any will do. -/
theorem isSlope_iff {points : List (K × K)} (some : points ≠ []) (b : K) :
    IsSlope points b ↔ b = slope points := by
  by_cases stacked : spread points = 0
  · have level := best_of_normal (normal_level some stacked)
    have zero : slope points = 0 := if_neg (not_not.mpr stacked)
    rw [zero]
    constructor
    · intro isSlope
      have small := isSlope.flattest _ _ level
      rw [abs_zero] at small
      exact abs_nonpos_iff.mp small
    · rintro rfl
      refine ⟨⟨_, level⟩, fun _ other _ => ?_⟩
      rw [abs_zero]
      exact abs_nonneg other
  · have normal := normal_slope stacked
    constructor
    · intro isSlope
      obtain ⟨intercept, best⟩ := isSlope.best
      exact best_slope_unique stacked normal best
    · rintro rfl
      refine ⟨⟨_, best_of_normal normal⟩, fun _ other best => ?_⟩
      rw [best_slope_unique stacked normal best]

end LeastSquares
