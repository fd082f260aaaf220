import Mathlib.Algebra.Order.Field.Rat
import Mathlib.Data.List.Range
import Mathlib.Data.Rat.Cast.Order
import Mathlib.Order.Iterate
import Mathlib.Tactic.FieldSimp
import Mathlib.Tactic.Linarith
import Mathlib.Tactic.Ring

/-!
# Digital straight lines

A line across a grid, walked from one end point to the other by unit steps.  A
walk counts its steps along both axes, and each turn takes one along an axis or
along both, by a test that weighs twice the distance from the line.  Along the
longer axis there is a step at every turn, and the walk stays within half a step
of the line along the other, so that it ends on the end point.
-/

namespace DigitalLine

/-- Two different points of the grid that touch. -/
def Neighbours (first second : ℤ × ℤ) : Prop :=
  first ≠ second ∧ |second.1 - first.1| ≤ 1 ∧ |second.2 - first.2| ≤ 1

/-- The steps that a walk takes. -/
def span (start stop : ℤ × ℤ) : ℕ :=
  max (stop.1 - start.1).natAbs (stop.2 - start.2).natAbs

/-- The point is within half a step of the line, along the axis on which the line
goes less far. -/
structure Near (start stop point : ℤ × ℤ) : Prop where
  flat : (stop.2 - start.2).natAbs ≤ (stop.1 - start.1).natAbs →
    |(point.2 : ℚ) - (start.2 + (point.1 - start.1) *
      ((stop.2 - start.2) / (stop.1 - start.1)))| ≤ 1 / 2
  steep : (stop.1 - start.1).natAbs ≤ (stop.2 - start.2).natAbs →
    |(point.1 : ℚ) - (start.1 + (point.2 - start.2) *
      ((stop.1 - start.1) / (stop.2 - start.2)))| ≤ 1 / 2

/-- The points of a line, from one end point to the other. -/
structure Traces (start stop : ℤ × ℤ) (points : List (ℤ × ℤ)) : Prop where
  length : points.length = span start stop + 1
  first : points.head? = some start
  last : points.getLast? = some stop
  neighbours : points.IsChain Neighbours
  near : ∀ point ∈ points, Near start stop point

/-- One turn of a walk that goes `across` steps along one axis and `down` steps
along the other. -/
def next (across down : ℕ) (place : ℕ × ℕ) : ℕ × ℕ :=
  (if (2 * place.1 + 1) * down ≤ 2 * (place.2 + 1) * across then place.1 + 1
    else place.1,
   if (2 * place.2 + 1) * across ≤ 2 * (place.1 + 1) * down then place.2 + 1
    else place.2)

/-- Where the walk is after some turns. -/
def walk (across down turns : ℕ) : ℕ × ℕ :=
  (next across down)^[turns] (0, 0)

variable {across down : ℕ}

theorem walk_succ (across down turns : ℕ) :
    walk across down (turns + 1) = next across down (walk across down turns) :=
  Function.iterate_succ_apply' ..

theorem next_swap (across down : ℕ) (place : ℕ × ℕ) :
    next down across place.swap = (next across down place).swap :=
  rfl

/-- The two axes may be exchanged. -/
theorem walk_swap (across down turns : ℕ) :
    walk down across turns = (walk across down turns).swap := by
  induction turns with
  | zero => rfl
  | succ turns induction => rw [walk_succ, walk_succ, induction, next_swap]

theorem le_next (across down : ℕ) (place : ℕ × ℕ) :
    place ≤ next across down place := by
  constructor
  · unfold next
    dsimp only
    split <;> omega
  · unfold next
    dsimp only
    split <;> omega

theorem next_le (across down : ℕ) (place : ℕ × ℕ) :
    next across down place ≤ (place.1 + 1, place.2 + 1) := by
  constructor
  · unfold next
    dsimp only
    split <;> omega
  · unfold next
    dsimp only
    split <;> omega

theorem walk_mono (across down : ℕ) : Monotone (walk across down) :=
  monotone_nat_of_le_succ fun turns => by
    rw [walk_succ]
    exact le_next across down _

/-- The distance from the line along the second axis, in units of a whole one
over the length of the first. -/
def Close (across down : ℕ) (place : ℕ × ℕ) : Prop :=
  2 * (place.2 * across) ≤ 2 * (place.1 * down) + across ∧
    2 * (place.1 * down) ≤ 2 * (place.2 * across) + across

/-- A turn of a walk that goes further along the first axis takes a step there,
and stays as close to the line as it was. -/
theorem next_of_flat (flat : down ≤ across) {place : ℕ × ℕ}
    (close : Close across down place) :
    (next across down place).1 = place.1 + 1 ∧
      Close across down (next across down place) := by
  obtain ⟨x, y⟩ := place
  obtain ⟨above, below⟩ := close
  dsimp only at above below
  have forward : (2 * x + 1) * down ≤ 2 * (y + 1) * across := by linarith
  unfold next Close
  dsimp only
  rw [if_pos forward]
  refine ⟨rfl, ?_⟩
  -- The second step is taken once the line is half a step away.
  split_ifs with reached
  · constructor <;> linarith
  · rw [not_le] at reached
    constructor <;> linarith

theorem walk_of_flat (flat : down ≤ across) (turns : ℕ) :
    (walk across down turns).1 = turns ∧
      Close across down (walk across down turns) := by
  induction turns with
  | zero => exact ⟨rfl, by simp [walk, Close]⟩
  | succ turns induction =>
      rw [walk_succ]
      obtain ⟨forward, close⟩ := next_of_flat flat induction.2
      exact ⟨forward.trans (congrArg Nat.succ induction.1), close⟩

/-- The walk ends on the end point. -/
theorem walk_across (flat : down ≤ across) :
    walk across down across = (across, down) := by
  rcases Nat.eq_zero_or_pos across with rfl | positive
  · rw [Nat.le_zero.mp flat]
    rfl
  · obtain ⟨forward, above, below⟩ := walk_of_flat flat across
    rw [forward] at above below
    refine Prod.ext forward ?_
    change (walk across down across).2 = down
    generalize (walk across down across).2 = place at above below
    -- Less than half a step away is on the point.
    apply Nat.le_antisymm
    · by_contra beyond
      have further : (down + 1) * across ≤ place * across :=
        Nat.mul_le_mul_right _ (not_le.mp beyond)
      linarith
    · by_contra short
      have nearer : (place + 1) * across ≤ down * across :=
        Nat.mul_le_mul_right _ (not_le.mp short)
      linarith

theorem walk_max (across down : ℕ) :
    walk across down (max across down) = (across, down) := by
  rcases le_total down across with flat | steep
  · rw [max_eq_left flat, walk_across flat]
  · rw [max_eq_right steep, walk_swap, walk_across steep, Prod.swap_prod_mk]

/-- The walk is never past the end point. -/
theorem walk_le {turns : ℕ} (before : turns ≤ max across down) :
    walk across down turns ≤ (across, down) :=
  (walk_mono across down before).trans (walk_max across down).le

/-- Before its last turn the walk is somewhere else. -/
theorem walk_ne {turns : ℕ} (before : turns < max across down) :
    walk across down turns ≠ (across, down) := by
  intro met
  rcases le_total down across with flat | steep
  · have forward := (walk_of_flat flat turns).1
    rw [met] at forward
    rw [max_eq_left flat] at before
    exact before.ne forward.symm
  · have forward := (walk_of_flat steep turns).1
    rw [walk_swap, met] at forward
    rw [max_eq_right steep] at before
    exact before.ne forward.symm

/-- The walk stays within half a step of the line. -/
theorem walk_within (across down turns : ℕ) :
    -((max across down : ℕ) : ℤ) ≤ 2 * ((walk across down turns).2 * across -
        (walk across down turns).1 * down) ∧
      2 * (((walk across down turns).2 : ℤ) * across -
        (walk across down turns).1 * down) ≤ ((max across down : ℕ) : ℤ) := by
  rcases le_total down across with flat | steep
  · obtain ⟨above, below⟩ := (walk_of_flat flat turns).2
    rw [max_eq_left flat]
    zify at above below
    constructor <;> linarith
  · obtain ⟨above, below⟩ := (walk_of_flat steep turns).2
    rw [walk_swap] at above below
    rw [max_eq_right steep]
    zify at above below
    dsimp only [Prod.fst_swap, Prod.snd_swap] at above below
    constructor <;> linarith

theorem walk_ne_succ (across down turns : ℕ) :
    walk across down (turns + 1) ≠ walk across down turns := by
  intro same
  rcases le_total down across with flat | steep
  · have next := (walk_of_flat flat (turns + 1)).1
    rw [same, (walk_of_flat flat turns).1] at next
    omega
  · have next := (walk_of_flat steep (turns + 1)).1
    rw [walk_swap, same, ← walk_swap, (walk_of_flat steep turns).1] at next
    omega

/-- The direction of an axis. -/
def heading (start stop : ℤ) : ℤ :=
  if start < stop then 1 else -1

theorem heading_mul_natAbs (start stop : ℤ) :
    heading start stop * (stop - start).natAbs = stop - start := by
  unfold heading
  split <;> omega

theorem heading_mul_self (start stop : ℤ) :
    heading start stop * heading start stop = 1 := by
  unfold heading
  split <;> rfl

/-- The point that a walk has come to. -/
def place (start stop : ℤ × ℤ) (steps : ℕ × ℕ) : ℤ × ℤ :=
  (start.1 + heading start.1 stop.1 * steps.1,
    start.2 + heading start.2 stop.2 * steps.2)

/-- The points of a walk from one end point to the other. -/
def points (start stop : ℤ × ℤ) : List (ℤ × ℤ) :=
  (List.range (span start stop + 1)).map fun turns =>
    place start stop (walk (stop.1 - start.1).natAbs (stop.2 - start.2).natAbs turns)

theorem place_injective (start stop : ℤ × ℤ) :
    Function.Injective (place start stop) := by
  intro first second same
  have coordinate {base goal : ℤ} {one other : ℕ}
      (same : base + heading base goal * one = base + heading base goal * other) :
      one = other := by
    have scaled := congrArg (heading base goal * ·) (add_left_cancel same)
    simp only [← mul_assoc, heading_mul_self, one_mul] at scaled
    exact_mod_cast scaled
  exact Prod.ext (coordinate (congrArg Prod.fst same))
    (coordinate (congrArg Prod.snd same))

theorem place_zero (start stop : ℤ × ℤ) : place start stop (0, 0) = start := by
  simp [place]

theorem place_stop (start stop : ℤ × ℤ) :
    place start stop ((stop.1 - start.1).natAbs, (stop.2 - start.2).natAbs) =
      stop := by
  unfold place
  rw [heading_mul_natAbs, heading_mul_natAbs]
  simp

theorem abs_heading_mul (start stop : ℤ) (amount : ℚ) :
    |(heading start stop : ℚ) * amount| = |amount| := by
  unfold heading
  split <;> simp

/-- Twice the distance from the line, in units of a whole one over the length of
the first axis. -/
theorem abs_sub_le_half {across down x y : ℕ} (positive : 0 < across)
    (close : Close across down (x, y)) :
    |(y : ℚ) - x * (down / across)| ≤ 1 / 2 := by
  obtain ⟨above, below⟩ := close
  have length : (0 : ℚ) < across := by exact_mod_cast positive
  have high : 2 * ((y : ℚ) * across) ≤ 2 * (x * down) + across := by
    exact_mod_cast above
  have low : 2 * ((x : ℚ) * down) ≤ 2 * (y * across) + across := by
    exact_mod_cast below
  have scaled : (y : ℚ) - x * (down / across) =
      (y * across - x * down) / across := by
    field_simp
  rw [scaled, abs_le, le_div_iff₀ length, div_le_iff₀ length]
  constructor <;> linarith

/-- The whole way along an axis, as a number of steps in its direction. -/
theorem cast_sub_eq (start stop : ℤ) :
    (stop : ℚ) - start = heading start stop * ((stop - start).natAbs : ℕ) := by
  have whole := congrArg (Int.cast : ℤ → ℚ) (heading_mul_natAbs start stop)
  simp only [Int.cast_mul, Int.cast_natCast, Int.cast_sub] at whole
  exact whole.symm

/-- A place close to the line, seen along the second axis. -/
theorem abs_place_le_half {start stop : ℤ × ℤ} {steps : ℕ × ℕ}
    (positive : 0 < (stop.1 - start.1).natAbs)
    (close : Close (stop.1 - start.1).natAbs (stop.2 - start.2).natAbs steps) :
    |((place start stop steps).2 : ℚ) -
      (start.2 + ((place start stop steps).1 - start.1) *
        ((stop.2 - start.2) / (stop.1 - start.1)))| ≤ 1 / 2 := by
  have near := abs_sub_le_half positive close
  rw [← abs_heading_mul start.2 stop.2] at near
  refine le_of_eq_of_le (congrArg _ ?_) near
  have unit : (heading start.1 stop.1 : ℚ) * heading start.1 stop.1 = 1 := by
    exact_mod_cast heading_mul_self start.1 stop.1
  have nonzero : (heading start.1 stop.1 : ℚ) ≠ 0 := left_ne_zero_of_mul_eq_one unit
  have length : ((stop.1 - start.1).natAbs : ℚ) ≠ 0 := by
    exact_mod_cast positive.ne'
  rw [cast_sub_eq start.1 stop.1, cast_sub_eq start.2 stop.2]
  unfold place
  simp only [Int.cast_add, Int.cast_mul, Int.cast_natCast]
  field_simp
  ring

theorem flat_of_walk {start stop : ℤ × ℤ} {turns : ℕ}
    (before : turns ≤ span start stop)
    (flat : (stop.2 - start.2).natAbs ≤ (stop.1 - start.1).natAbs) :
    |((place start stop (walk (stop.1 - start.1).natAbs
        (stop.2 - start.2).natAbs turns)).2 : ℚ) -
      (start.2 + ((place start stop (walk (stop.1 - start.1).natAbs
        (stop.2 - start.2).natAbs turns)).1 - start.1) *
        ((stop.2 - start.2) / (stop.1 - start.1)))| ≤ 1 / 2 := by
  rcases Nat.eq_zero_or_pos (stop.1 - start.1).natAbs with single | positive
  · have still : turns = 0 := by
      unfold span at before
      omega
    subst still
    change |((place start stop (0, 0)).2 : ℚ) - (start.2 +
      ((place start stop (0, 0)).1 - start.1) * _)| ≤ 1 / 2
    rw [place_zero]
    norm_num
  · exact abs_place_le_half positive (walk_of_flat flat turns).2

theorem near_walk {start stop : ℤ × ℤ} {turns : ℕ}
    (before : turns ≤ span start stop) :
    Near start stop (place start stop (walk (stop.1 - start.1).natAbs
      (stop.2 - start.2).natAbs turns)) where
  flat := flat_of_walk before
  steep steep := by
    have turned : turns ≤ span start.swap stop.swap := by
      unfold span at *
      rwa [max_comm]
    have near := @flat_of_walk start.swap stop.swap turns turned steep
    rw [walk_swap] at near
    exact near

theorem neighbours_walk (start stop : ℤ × ℤ) (turns : ℕ) :
    Neighbours
      (place start stop (walk (stop.1 - start.1).natAbs
        (stop.2 - start.2).natAbs turns))
      (place start stop (walk (stop.1 - start.1).natAbs
        (stop.2 - start.2).natAbs (turns + 1))) := by
  generalize (stop.1 - start.1).natAbs = across
  generalize (stop.2 - start.2).natAbs = down
  have coordinate {base goal : ℤ} {one other : ℕ} (up : one ≤ other)
      (little : other ≤ one + 1) :
      |base + heading base goal * other - (base + heading base goal * one)| ≤ 1 := by
    rw [abs_le]
    unfold heading
    split <;> omega
  have up := walk_mono across down (Nat.le_succ turns)
  have little := next_le across down (walk across down turns)
  rw [← walk_succ] at little
  refine ⟨fun same => ?_, coordinate up.1 little.1, coordinate up.2 little.2⟩
  exact walk_ne_succ across down turns (place_injective start stop same).symm

/-- A walk traces the line. -/
theorem traces_points (start stop : ℤ × ℤ) :
    Traces start stop (points start stop) where
  length := by simp [points]
  first := by
    unfold points
    rw [List.range_succ_eq_map, List.map_cons, List.head?_cons]
    exact congrArg some (place_zero start stop)
  last := by
    unfold points
    rw [List.range_succ, List.map_append, List.map_singleton, List.getLast?_concat]
    unfold span
    rw [walk_max, place_stop]
  neighbours := by
    unfold points
    rw [List.isChain_map, List.isChain_range_succ]
    exact fun turns _ => neighbours_walk start stop turns
  near := by
    unfold points
    intro point member
    obtain ⟨turns, bound, rfl⟩ := List.mem_map.mp member
    exact near_walk (Nat.lt_succ_iff.mp (List.mem_range.mp bound))

end DigitalLine
